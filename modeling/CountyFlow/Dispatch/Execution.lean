import CountyFlow.Dispatch.Reservation

/-!
# One call and what it meets

`execute` as its caller sees it: a call takes its steps, and at every step it meets some tables and
some outcome.
-/

namespace CountyFlow.Dispatch

open CountyFlow.Lib Function

def CallState.meet (st : CallState) (met : CallOutcome × Store) : Option CallState :=
  (st.step met.1 met.2).map Prod.fst

/-- A call behind everything it has met. -/
def DispatchRequest.execute (r : DispatchRequest) (world : List (CallOutcome × Store)) :
    Option CallState :=
  exec CallState.meet (.start r) world

/-! ### Where a call ends -/

/-- A candidate that a call may reserve: it has a vehicle and a driver. -/
def DispatchRequest.Reservable (r : DispatchRequest) (candidate : Option CandidateState) : Prop :=
  candidate ∈ r.attempts ∧ ∀ c, candidate = some c → text c.vehicleId ≠ none ∧ text c.driverId ≠ none

/-- What is known of a call for `r`. -/
def CallState.Tries (r : DispatchRequest) : CallState → Prop
  | .idle => False
  | .loading r' candidate rest => r' = r ∧ candidate :: rest ⊆ r.attempts
  | .reserving r' candidate rest => r' = r ∧ some candidate :: rest ⊆ r.attempts
  | .committing r' reservation rest =>
    r' = r ∧ r.Reservable (reservation.map Prod.fst) ∧ rest ⊆ r.attempts
  | .rereading r' => r' = r
  | .created r' result =>
    r' = r ∧ ∃ candidate id dispatchNo, r.Reservable candidate ∧
      result = r.created candidate id dispatchNo
  | .replayed r' result => r' = r ∧ ∃ dispatch, result = r.result dispatch
  | .raised r' _ => r' = r

variable {store : Store} {reservation : Option (CandidateState × FleetVehicle)} {dispatchNo : String}
  {st st' : CallState}

namespace CallState

variable {r : DispatchRequest} {rest : List (Option CandidateState)}

theorem tries_attempt (h : rest ⊆ r.attempts) : (attempt r rest).Tries r := by
  cases rest with
  | nil => exact rfl
  | cons candidate rest => exact ⟨rfl, h⟩

theorem tries_flush (hreservable : r.Reservable (reservation.map Prod.fst))
    (hrest : rest ⊆ r.attempts) : (flush store r reservation rest dispatchNo).1.Tries r := by
  cases reservation with
  | none =>
    simp only [flush]
    split
    · exact rfl
    · exact ⟨rfl, none, _, _, hreservable, rfl⟩
  | some reservation =>
    simp only [flush]
    split
    · exact tries_attempt hrest
    · split
      · exact tries_attempt hrest
      · split
        · exact rfl
        · exact ⟨rfl, some reservation.1, _, _, hreservable, rfl⟩

theorem tries_meet {met : CallOutcome × Store} (hst : st.Tries r)
    (h : st.meet met = some st') : st'.Tries r := by
  obtain ⟨⟨st'', store'⟩, hstep, rfl⟩ := Option.map_eq_some_iff.mp h
  cases st with
  | loading r' candidate rest =>
    obtain ⟨rfl, hsubset⟩ := hst
    simp only [step] at hstep
    split at hstep
    · cases hstep
      exact rfl
    · split at hstep
      · cases hstep
        exact ⟨rfl, _, rfl⟩
      · cases hstep
        refine ⟨rfl, ⟨hsubset (List.mem_cons_self ..), ?_⟩, fun c hc => ?_⟩
        · intro c hc
          cases hc
        · exact hsubset (List.mem_cons_of_mem _ hc)
      · cases hstep
        exact ⟨rfl, hsubset⟩
  | reserving r' candidate rest =>
    obtain ⟨rfl, hsubset⟩ := hst
    have hrest : rest ⊆ r'.attempts := fun c hc => hsubset (List.mem_cons_of_mem _ hc)
    simp only [step] at hstep
    split at hstep
    · cases hstep
      exact tries_attempt hrest
    · rename_i vehicle hfind
      split at hstep
      · cases hstep
        exact tries_attempt hrest
      · rename_i hok
        cases hstep
        refine ⟨rfl, ⟨hsubset (List.mem_cons_self ..), ?_⟩, hrest⟩
        intro c hc
        cases hc
        obtain ⟨id, hid, -⟩ := Option.bind_eq_some_iff.mp hfind
        refine ⟨?_, (not_or.mp hok).2⟩
        rw [hid]
        exact Option.some_ne_none id
  | committing r' reservation rest =>
    obtain ⟨rfl, hreservable, hrest⟩ := hst
    simp only [step] at hstep
    split at hstep
    · obtain ⟨rfl, -⟩ := Prod.mk.inj (Option.some.inj hstep)
      exact tries_flush hreservable hrest
    · cases hstep
      exact rfl
    · cases hstep
      exact rfl
  | rereading r' =>
    obtain rfl := hst
    simp only [step] at hstep
    split at hstep
    · cases hstep
      exact ⟨rfl, _, rfl⟩
    · cases hstep
      exact rfl
  | _ => cases hstep

end CallState

variable {world : List (CallOutcome × Store)}

theorem execute_tries {r : DispatchRequest} (h : r.execute world = some st) : st.Tries r :=
  exec_preserves (fun _ _ _ hst hmeet => CallState.tries_meet hst hmeet) h
    (CallState.tries_attempt (List.Subset.refl _))

theorem mem_attempts {r : DispatchRequest} {c : CandidateState} (h : some c ∈ r.attempts) :
    c ∈ r.rankedEligibleCandidates.take 2 := by
  unfold DispatchRequest.attempts at h
  split at h
  · simp at h
  · rename_i candidates hcandidates
    obtain ⟨c', hc', heq⟩ := List.mem_map.mp h
    cases heq
    exact hc'

theorem none_notMem_attempts {r : DispatchRequest} (h : r.rankedEligibleCandidates ≠ []) :
    none ∉ r.attempts := by
  unfold DispatchRequest.attempts
  split
  · rename_i hnil
    exact absurd hnil h
  · rw [List.mem_map]
    rintro ⟨c, -, hc⟩
    cases hc

/-! ### What a call meets -/

variable {result : DispatchResult}

namespace CallState

theorem attempt_ne_replayed {r r' : DispatchRequest} {rest : List (Option CandidateState)}
    : attempt r rest ≠ .replayed r' result := by
  cases rest with
  | nil => exact fun h => by cases h
  | cons candidate rest => exact fun h => by cases h

/-- A dispatch that is replayed was in the tables. -/
theorem meet_replayed {met : CallOutcome × Store} {r r' : DispatchRequest} (hst : st.Tries r)
    (h : st.meet met = some (.replayed r' result)) :
    ∃ dispatch, met.2.dispatches.find r.taskId = some dispatch ∧ result = r.result dispatch := by
  obtain ⟨⟨st', store'⟩, hstep, hst'⟩ := Option.map_eq_some_iff.mp h
  obtain rfl : st' = .replayed r' result := hst'
  cases st with
  | loading r'' candidate rest =>
    obtain ⟨rfl, -⟩ := hst
    simp only [step] at hstep
    split at hstep
    · cases hstep
    · split at hstep
      · rename_i dispatch hfind
        cases hstep
        exact ⟨dispatch, hfind, rfl⟩
      · cases hstep
      · cases hstep
  | reserving r'' candidate rest =>
    simp only [step] at hstep
    split at hstep
    · exact absurd (congrArg Prod.fst (Option.some.inj hstep)) attempt_ne_replayed
    · split at hstep
      · exact absurd (congrArg Prod.fst (Option.some.inj hstep)) attempt_ne_replayed
      · cases hstep
  | committing r'' reservation rest =>
    simp only [step] at hstep
    split at hstep
    · have hflush : (flush met.2 r'' reservation rest met.1.dispatchNo).1 = .replayed r' result :=
        congrArg Prod.fst (Option.some.inj hstep)
      cases reservation with
      | none =>
        simp only [flush] at hflush
        split at hflush <;> cases hflush
      | some reservation =>
        simp only [flush] at hflush
        split at hflush
        · exact absurd hflush attempt_ne_replayed
        · split at hflush
          · exact absurd hflush attempt_ne_replayed
          · split at hflush <;> cases hflush
    · cases hstep
    · cases hstep
  | rereading r'' =>
    obtain rfl := hst
    simp only [step] at hstep
    split at hstep
    · rename_i dispatch _ hfind
      cases hstep
      exact ⟨_, hfind, rfl⟩
    · cases hstep
  | _ => cases hstep

section Races

variable {r : DispatchRequest} {met : CallOutcome × Store} {c : CandidateState} {task : TaskRow}
  {rest : List (Option CandidateState)}

/-- A candidate whose vehicle is not there is passed over. -/
theorem exec_passes (htask : met.2.tasks.find r.taskId = some task)
    (hnew : met.2.dispatches.find r.taskId = none)
    (hlost : (text c.vehicleId).bind met.2.vehicles.find = none) :
    exec meet (attempt r (some c :: rest)) [met, met] = some (attempt r rest) := by
  have hload : (attempt r (some c :: rest)).meet met = some (.reserving r c rest) := by
    simp only [attempt, meet, step, htask, hnew, Option.map_some]
  have hpass : (CallState.reserving r c rest).meet met = some (attempt r rest) := by
    simp only [meet, step, hlost, Option.map_some]
  rw [exec_cons, hload, Option.bind_some, exec_cons, hpass, Option.bind_some, exec_nil]

/-- A candidate whose vehicle is free is reserved, and the dispatch names it. -/
theorem exec_reserves {id : String} {vehicle : FleetVehicle} (htask : met.2.tasks.find r.taskId = some task)
    (hnew : met.2.dispatches.find r.taskId = none) (hid : text c.vehicleId = some id)
    (hdriver : text c.driverId ≠ none) (hvehicle : met.2.vehicles.find id = some vehicle)
    (hfree : vehicle.status = .available) (hcommit : met.1.commit = .checked) :
    exec meet (attempt r (some c :: rest)) [met, met, met] =
      some (.created r (r.created (some c) met.2.nextId met.1.dispatchNo)) := by
  have hload : (attempt r (some c :: rest)).meet met = some (.reserving r c rest) := by
    simp only [attempt, meet, step, htask, hnew, Option.map_some]
  have hreserve : (CallState.reserving r c rest).meet met =
      some (.committing r (some (c, vehicle)) rest) := by
    have hok : ¬ (vehicle.status ≠ .available ∨ text c.driverId = none) :=
      not_or.mpr ⟨not_not.mpr hfree, hdriver⟩
    simp only [meet, step, hid, Option.bind_some, hvehicle, if_neg hok, Option.map_some]
  obtain ⟨dispatches, hadd⟩ := Table.add_of_find_none (t := met.2.dispatches)
    (r := r.row (some c) met.2.nextId met.1.dispatchNo) hnew
  have hflush : (CallState.committing r (some (c, vehicle)) rest).meet met =
      some (.created r (r.created (some c) met.2.nextId met.1.dispatchNo)) := by
    have hfind : met.2.vehicles.find vehicle.vehicleId = some vehicle := by
      rw [Table.find_key hvehicle]
      exact hvehicle
    simp only [meet, step, hcommit, flush, Option.map_some, hfind, ne_eq, not_true_eq_false,
      if_false, hadd]
  rw [exec_cons, hload, Option.bind_some, exec_cons, hreserve, Option.bind_some, exec_cons, hflush,
    Option.bind_some, exec_nil]

end Races

end CallState

theorem execute_replayed {r r' : DispatchRequest} (h : r.execute world = some (.replayed r' result)) :
    ∃ met ∈ world, ∃ dispatch, met.2.dispatches.find r.taskId = some dispatch ∧
      result = r.result dispatch := by
  rcases List.eq_nil_or_concat world with rfl | ⟨before, met, rfl⟩
  · exact absurd (Option.some.inj h) CallState.attempt_ne_replayed
  · rw [List.concat_eq_append] at h ⊢
    obtain ⟨st, hst, hlast⟩ := exec_append_eq_some.mp h
    obtain ⟨st', hmeet, hnil⟩ := exec_cons_eq_some.mp hlast
    cases hnil
    obtain ⟨dispatch, hfind, hresult⟩ := CallState.meet_replayed (execute_tries hst) hmeet
    exact ⟨met, List.mem_append_right before (List.mem_singleton_self met), dispatch, hfind, hresult⟩

/-- The tables of a task without a dispatch, in which only one vehicle is free. -/
def onlyFree (taskId vehicleId : String) : Store where
  tasks := ⟨[⟨taskId, .processing⟩], List.nodup_singleton _⟩
  vehicles := ⟨[⟨vehicleId, .available, 1⟩], List.nodup_singleton _⟩
  dispatches := .empty
  evidence := []
  audits := []
  nextId := 1

/-- **Every candidate that may be reserved is reserved in some race**: the one before it is lost. -/
theorem exists_reserving {r : DispatchRequest} {c : CandidateState} (hc : r.Reservable (some c))
    (hdistinct : (r.candidateVehicles.map CandidateState.vehicleId).Nodup) :
    ∃ world id dispatchNo, r.execute world = some (.created r (r.created (some c) id dispatchNo)) := by
  obtain ⟨hmem, htexts⟩ := hc
  obtain ⟨hvehicle, hdriver⟩ := htexts c rfl
  obtain ⟨vehicleId, hid⟩ := Option.ne_none_iff_exists'.mp hvehicle
  let met : CallOutcome × Store := (⟨.checked, "DSP-1"⟩, onlyFree r.taskId vehicleId)
  have hfree : met.2.vehicles.find vehicleId = some ⟨vehicleId, .available, 1⟩ :=
    Table.find_eq_some_iff.mpr ⟨List.mem_singleton_self _, rfl⟩
  have htask : met.2.tasks.find r.taskId = some ⟨r.taskId, .processing⟩ :=
    Table.find_eq_some_iff.mpr ⟨List.mem_singleton_self _, rfl⟩
  have hreserves : ∀ rest, exec CallState.meet (.attempt r (some c :: rest)) [met, met, met] =
      some (.created r (r.created (some c) 1 "DSP-1")) := fun rest =>
    CallState.exec_reserves htask rfl hid hdriver hfree rfl rfl
  have htaken := mem_attempts hmem
  have hstart : CallState.start r = .attempt r ((r.rankedEligibleCandidates.take 2).map some) := by
    unfold CallState.start DispatchRequest.attempts
    split
    · rename_i hnil
      rw [hnil] at htaken
      cases htaken
    · rfl
  have hranked : (r.rankedEligibleCandidates.map CandidateState.vehicleId).Nodup :=
    hdistinct.sublist (List.filter_sublist.map _)
  unfold DispatchRequest.execute
  rw [hstart]
  cases hlist : r.rankedEligibleCandidates with
  | nil =>
    rw [hlist] at htaken
    cases htaken
  | cons first more =>
    rw [hlist] at htaken hranked
    rcases List.mem_cons.mp htaken with rfl | hsecond
    · exact ⟨_, _, _, hreserves ((more.take 1).map some)⟩
    obtain ⟨second, hmore⟩ : ∃ second, more.take 1 = [second] := by
      cases more with
      | nil => cases hsecond
      | cons second more => exact ⟨second, rfl⟩
    have hfirst : (first :: more).take 2 = [first, c] := by
      rw [hmore] at hsecond
      rw [List.take_succ_cons, hmore, List.mem_singleton.mp hsecond]
    have hne : first.vehicleId ≠ c.vehicleId := fun heq =>
      (List.nodup_cons.mp hranked).1 (heq ▸ List.mem_map_of_mem (List.mem_of_mem_take hsecond))
    have hlost : (text first.vehicleId).bind met.2.vehicles.find = none := by
      refine Option.bind_eq_none_iff.mpr fun id hother => ?_
      refine List.find?_eq_none.mpr fun vehicle hvehicle => ?_
      cases List.mem_singleton.mp hvehicle
      rw [decide_eq_true_eq]
      rintro rfl
      exact hne ((text_eq_some.mp hother).1.trans (text_eq_some.mp hid).1.symm)
    refine ⟨[met, met] ++ [met, met, met], 1, "DSP-1", ?_⟩
    rw [hfirst, exec_append]
    show (exec CallState.meet (.attempt r [some first, some c]) [met, met]).bind _ = _
    rw [CallState.exec_passes htask rfl hlost]
    exact hreserves []

/-! ### What a call depends on -/

/-- Two calls are at the same point, with the requests `r` and `r'`. -/
inductive CallState.Alike (r r' : DispatchRequest) : CallState → CallState → Prop
  | loading (candidate : Option CandidateState) (rest : List (Option CandidateState)) :
      Alike r r' (.loading r candidate rest) (.loading r' candidate rest)
  | reserving (candidate : CandidateState) (rest : List (Option CandidateState)) :
      Alike r r' (.reserving r candidate rest) (.reserving r' candidate rest)
  | committing (reservation : Option (CandidateState × FleetVehicle))
      (rest : List (Option CandidateState)) :
      Alike r r' (.committing r reservation rest) (.committing r' reservation rest)
  | rereading : Alike r r' (.rereading r) (.rereading r')
  | created (result result' : DispatchResult) : Alike r r' (.created r result) (.created r' result')
  | replayed (result result' : DispatchResult) (h : result.status = result'.status) :
      Alike r r' (.replayed r result) (.replayed r' result')
  | raised (error : DispatchError) : Alike r r' (.raised r error) (.raised r' error)

variable {id : ℕ} {candidate : Option CandidateState}

namespace CallState

variable {r r' : DispatchRequest}

theorem alike_attempt (rest : List (Option CandidateState)) :
    Alike r r' (attempt r rest) (attempt r' rest) := by
  cases rest with
  | nil => exact .raised _
  | cons candidate rest => exact .loading candidate rest

theorem add_row (htask : r.taskId = r'.taskId) {dispatches : Table DispatchRow DispatchRow.taskId}
    (h : store.dispatches.add (r.row candidate id dispatchNo) = some dispatches) :
    ∃ dispatches', store.dispatches.add (r'.row candidate id dispatchNo) = some dispatches' := by
  have hnone : store.dispatches.find r.taskId = none := Table.find_none_of_add h
  rw [htask] at hnone
  exact Table.add_of_find_none hnone

theorem add_row_none (htask : r.taskId = r'.taskId)
    (h : store.dispatches.add (r.row candidate id dispatchNo) = none) :
    store.dispatches.add (r'.row candidate id dispatchNo) = none := by
  by_contra hne
  obtain ⟨dispatches', h'⟩ := Option.ne_none_iff_exists'.mp hne
  obtain ⟨dispatches, hsome⟩ := add_row htask.symm h'
  rw [h] at hsome
  cases hsome

theorem alike_flush (htask : r.taskId = r'.taskId) {rest : List (Option CandidateState)}
    :
    Alike r r' (flush store r reservation rest dispatchNo).1
      (flush store r' reservation rest dispatchNo).1 := by
  cases reservation with
  | none =>
    simp only [flush, Option.map_none]
    cases h : store.dispatches.add (r.row none store.nextId dispatchNo) with
    | none =>
      rw [add_row_none htask h]
      exact .rereading
    | some dispatches =>
      obtain ⟨dispatches', h'⟩ := add_row htask h
      rw [h']
      exact .created _ _
  | some reservation =>
    simp only [flush, Option.map_some]
    split
    · exact alike_attempt rest
    · split
      · exact alike_attempt rest
      · cases h : store.dispatches.add (r.row (some reservation.1) store.nextId dispatchNo) with
        | none =>
          rw [add_row_none htask h]
          exact .rereading
        | some dispatches =>
          obtain ⟨dispatches', h'⟩ := add_row htask h
          rw [h']
          exact .created _ _

theorem alike_meet (htask : r.taskId = r'.taskId) {next : CallState} {met : CallOutcome × Store}
    (hst : Alike r r' st st') (h : st.meet met = some next) :
    ∃ next', st'.meet met = some next' ∧ Alike r r' next next' := by
  obtain ⟨⟨st'', store'⟩, hstep, rfl⟩ := Option.map_eq_some_iff.mp h
  cases hst with
  | loading candidate rest =>
    simp only [step] at hstep
    simp only [meet, step, ← htask]
    split at hstep
    · cases hstep
      exact ⟨_, rfl, .raised _⟩
    · split at hstep
      · cases hstep
        exact ⟨_, rfl, .replayed _ _ rfl⟩
      · cases hstep
        exact ⟨_, rfl, .committing none rest⟩
      · cases hstep
        exact ⟨_, rfl, .reserving _ rest⟩
  | reserving candidate rest =>
    simp only [step] at hstep
    simp only [meet, step]
    split at hstep
    · cases hstep
      exact ⟨_, rfl, alike_attempt rest⟩
    · split at hstep
      · rename_i hskip
        cases hstep
        rw [if_pos hskip]
        exact ⟨_, rfl, alike_attempt rest⟩
      · rename_i hok
        cases hstep
        rw [if_neg hok]
        exact ⟨_, rfl, .committing _ rest⟩
  | committing reservation rest =>
    simp only [step] at hstep
    simp only [meet, step]
    split at hstep
    · obtain ⟨rfl, -⟩ := Prod.mk.inj (Option.some.inj hstep)
      exact ⟨_, rfl, alike_flush htask⟩
    · cases hstep
      exact ⟨_, rfl, .rereading⟩
    · cases hstep
      exact ⟨_, rfl, .raised _⟩
  | rereading =>
    simp only [step] at hstep
    simp only [meet, step, ← htask]
    split at hstep
    · cases hstep
      exact ⟨_, rfl, .replayed _ _ rfl⟩
    · cases hstep
      exact ⟨_, rfl, .raised _⟩
  | _ => cases hstep

end CallState

theorem execute_alike {r r' : DispatchRequest} (htask : r.taskId = r'.taskId)
    (hcandidates : r.candidateVehicles = r'.candidateVehicles) (h : r.execute world = some st) :
    ∃ st', r'.execute world = some st' ∧ CallState.Alike r r' st st' := by
  have hall : ∀ (world : List (CallOutcome × Store)) (a b : CallState), CallState.Alike r r' a b →
      exec CallState.meet a world = some st →
      ∃ st', exec CallState.meet b world = some st' ∧ CallState.Alike r r' st st' := by
    intro world
    induction world with
    | nil =>
      intro a b hab hrun
      cases hrun
      exact ⟨b, rfl, hab⟩
    | cons met world ih =>
      intro a b hab hrun
      obtain ⟨next, hnext, hrest⟩ := exec_cons_eq_some.mp hrun
      obtain ⟨next', hnext', halike⟩ := CallState.alike_meet htask hab hnext
      obtain ⟨st', hst', hend⟩ := ih next next' halike hrest
      exact ⟨st', exec_cons_eq_some.mpr ⟨next', hnext', hst'⟩, hend⟩
  have hattempts : r'.attempts = r.attempts := by
    unfold DispatchRequest.attempts DispatchRequest.rankedEligibleCandidates
    rw [hcandidates]
  refine hall world _ _ ?_ h
  unfold CallState.start
  rw [hattempts]
  exact CallState.alike_attempt r.attempts

/-! ### Calls in a system -/

namespace System

/-- Every call that is under way or has returned has met some world. -/
def Executing (s : System) : Prop :=
  ∀ p r, (s.calls p).request = some r → s.calls p ≠ .raised r .databaseError →
    ∃ world, r.execute world = some (s.calls p)

theorem Executing.update {s : System} (hs : s.Executing) {p : ℕ}
    (hst : ∀ r, st.request = some r → st ≠ .raised r .databaseError →
      ∃ world, r.execute world = some st) :
    ({ store := store, calls := update s.calls p st } : System).Executing := by
  intro q r hrequest hraised
  by_cases hq : q = p
  · subst hq
    simp only [update_self] at hrequest hraised ⊢
    exact hst r hrequest hraised
  · simp only [update_of_ne hq] at hrequest hraised ⊢
    exact hs q r hrequest hraised

theorem request_of_step {o : CallOutcome} {store' : Store}
    (h : st.step o store = some (st', store')) : st'.request = st.request := by
  cases CallState.step_moves h with
  | quiet hrequest => exact hrequest
  | loaded => rfl
  | replayed hrequest => exact hrequest.symm
  | created => rfl
  | reserved => rfl

theorem request_attempt (r : DispatchRequest) (rest : List (Option CandidateState)) :
    (CallState.attempt r rest).request = some r := by
  cases rest <;> rfl

/-- A call that goes on has met some world too: that of before, and one outcome more. -/
theorem step_executing {s s' : System} {a : Action} (hs : s.Executing) (h : step s a = some s') :
    s'.Executing := by
  cases a with
  | call p r =>
    simp only [step] at h
    split at h
    · cases h
      refine hs.update fun r' hrequest _ => ?_
      have hstart : (CallState.start r).request = some r := request_attempt r r.attempts
      rw [hstart] at hrequest
      cases hrequest
      exact ⟨[], rfl⟩
    · cases h
  | advance p o =>
    obtain ⟨⟨st, store⟩, hstep, rfl⟩ := Option.map_eq_some_iff.mp h
    refine hs.update fun r hrequest _ => ?_
    have hbefore : (s.calls p).request = some r := (request_of_step hstep).symm.trans hrequest
    have hrunning : s.calls p ≠ .raised r .databaseError := by
      intro hraised
      rw [hraised] at hstep
      cases hstep
    obtain ⟨world, hworld⟩ := hs p r hbefore hrunning
    refine ⟨world ++ [(o, s.store)], exec_append_eq_some.mpr ⟨_, hworld, ?_⟩⟩
    exact exec_cons_eq_some.mpr ⟨st, by rw [CallState.meet, hstep]; rfl, rfl⟩
  | interrupt p =>
    simp only [step] at h
    split at h
    all_goals first
      | cases h
        refine hs.update fun r hrequest hraised => ?_
        cases hrequest
        exact absurd rfl hraised
      | cases h
  | register taskId =>
    obtain ⟨store, -, rfl⟩ := Option.map_eq_some_iff.mp h
    exact hs
  | setStatus taskId status =>
    obtain ⟨store, -, rfl⟩ := Option.map_eq_some_iff.mp h
    exact hs
  | persistAudit taskId dispatchId auditId result reason =>
    cases h
    exact hs
  | decide taskId decision reason auditId =>
    obtain ⟨store, -, rfl⟩ := Option.map_eq_some_iff.mp h
    exact hs
  | operate changes =>
    obtain ⟨store, -, rfl⟩ := Option.map_eq_some_iff.mp h
    exact hs

theorem execute_of_exec {s₀ s : System} {run : List Action} (h₀ : s₀.Initial)
    (hrun : exec step s₀ run = some s) : s.Executing := by
  refine exec_preserves (fun _ _ _ hs hstep => step_executing hs hstep) hrun ?_
  intro p r hrequest
  rw [h₀ p] at hrequest
  cases hrequest

end System

end CountyFlow.Dispatch
