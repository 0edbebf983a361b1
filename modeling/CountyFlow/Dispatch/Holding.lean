import CountyFlow.Dispatch.Reservation

/-!
# Who holds a reserved vehicle

A reservation ends when the vehicle operations send the vehicle out; nothing takes it back.  A rejected
or dead-lettered task keeps its vehicle.
-/

namespace CountyFlow.Dispatch

open CountyFlow.Lib CountyFlow.Worker

variable {store store' : Store} {task task' : TaskRow} {t : String}

namespace Store

def taskStatus (store : Store) (t : String) : Option TaskStatus :=
  (store.tasks.find t).map TaskRow.status

/-- The task of a dispatch may still need its vehicle. -/
def Open (store : Store) (t : String) : Prop :=
  store.taskStatus t ≠ some .rejected ∧ store.taskStatus t ≠ some .dlq

/-- A dispatch that is not rejected, of a task that is neither rejected nor dead-lettered. -/
def Live (store : Store) (d : DispatchRow) : Prop := d.status ≠ .rejected ∧ store.Open d.taskId

/-- The vehicle is `RESERVED`. -/
def IsReserved (store : Store) (id : String) : Prop :=
  ∃ v, store.vehicles.find id = some v ∧ v.status = .reserved

/-- The task keeps no `RESERVED` vehicle from the others: one that its dispatch names has another live
dispatch. -/
def Spares (store : Store) (t : String) : Prop :=
  ∀ d id, store.dispatches.find t = some d → d.targetVehicleId = some id → store.IsReserved id →
    ∃ t' d', t' ≠ t ∧ store.dispatches.find t' = some d' ∧ d'.targetVehicleId = some id ∧ store.Live d'

theorem taskStatus_replace (h : store.tasks.find task'.taskId = some task) (t : String) :
    ({ store with tasks := store.tasks.replace task' } : Store).taskStatus t =
      if t = task'.taskId then some task'.status else store.taskStatus t := by
  unfold taskStatus
  by_cases ht : t = task'.taskId
  · rw [if_pos ht, ht]
    show ((store.tasks.replace task').find task'.taskId).map TaskRow.status = _
    rw [Table.find_replace_self h]
    rfl
  · rw [if_neg ht]
    show ((store.tasks.replace task').find t).map TaskRow.status = _
    rw [Table.find_replace_ne _ _ ht]

theorem open_of_ne (h : store.tasks.find task'.taskId = some task)
    (htasks : store'.tasks = store.tasks.replace task') (ht : t ≠ task'.taskId)
    (hopen : store.Open t) : store'.Open t := by
  have hsame : store'.taskStatus t = store.taskStatus t := by
    have hreplace := taskStatus_replace h t
    rw [if_neg ht] at hreplace
    rw [← hreplace]
    unfold taskStatus
    rw [htasks]
  unfold Open
  rw [hsame]
  exact hopen

theorem open_of_status (h : store.tasks.find task'.taskId = some task)
    (htasks : store'.tasks = store.tasks.replace task') (hrejected : task'.status ≠ .rejected)
    (hdlq : task'.status ≠ .dlq) : store'.Open task'.taskId := by
  have hsame : store'.taskStatus task'.taskId = some task'.status := by
    have hreplace := taskStatus_replace h task'.taskId
    rw [if_pos rfl] at hreplace
    rw [← hreplace]
    unfold taskStatus
    rw [htasks]
  unfold Open
  rw [hsame]
  exact ⟨fun he => hrejected (Option.some.inj he), fun he => hdlq (Option.some.inj he)⟩

theorem IsReserved.of_same {id : String} (h : store'.IsReserved id) (hv : store'.vehicles = store.vehicles) :
    store.IsReserved id := by
  unfold IsReserved at h ⊢
  rwa [← hv]

theorem Open.of_same (h : store.Open t) (htasks : store'.tasks = store.tasks) : store'.Open t := by
  unfold Open taskStatus
  rwa [htasks]

end Store

variable {s s' : System} {p : ℕ} {o : CallOutcome} {P P' : DispatchRow → Prop} {a : Action}

namespace System

/-- Every `RESERVED` vehicle is the target of a dispatch with the property. -/
def Held (s : System) (P : DispatchRow → Prop) : Prop :=
  ∀ id, s.store.IsReserved id →
    ∃ t d, s.store.dispatches.find t = some d ∧ d.targetVehicleId = some id ∧ P d

theorem advance_reserved (hs : s.Sound) (h : step s (.advance p o) = some s') {id : String}
    (hid : s'.store.IsReserved id) :
    s.store.IsReserved id ∨ ∃ r c v rest no, s.calls p = .committing r (some (c, v)) rest ∧
      (r.row (some c) s.store.nextId no).targetVehicleId = some id ∧
      s'.store.dispatches.find r.taskId = some (r.row (some c) s.store.nextId no) := by
  obtain ⟨⟨st, store⟩, hstep, rfl⟩ := Option.map_eq_some_iff.mp h
  have hm := CallState.step_moves hstep
  generalize hold : s.calls p = st₀ at hm
  cases hm with
  | @reserved r c loaded vehicle rest dispatchNo dispatches hfind hversion hadd =>
    obtain ⟨v', hv', hreserved⟩ := hid
    obtain ⟨hc, -⟩ := hs.loaded p r c loaded rest hold
    have hid₁ : vehicle.vehicleId = loaded.vehicleId := Table.find_key hfind
    by_cases heq : id = loaded.vehicleId
    · refine .inr ⟨r, c, loaded, rest, dispatchNo, rfl, ?_, ?_⟩
      · show text c.vehicleId = some id
        rw [heq]
        exact hc
      · show dispatches.find r.taskId = _
        rw [Table.find_add hadd]
        exact if_pos rfl
    · refine .inl ⟨v', ?_, hreserved⟩
      have hv'' : (s.store.vehicles.replace
          { vehicle with status := .reserved, version := vehicle.version + 1 }).find id = some v' := hv'
      have hne : id ≠ ({ vehicle with
          status := .reserved, version := vehicle.version + 1 } : FleetVehicle).vehicleId :=
        fun he => heq (he.trans hid₁)
      rw [Table.find_replace_ne _ _ hne] at hv''
      exact hv''
  | _ => exact .inl hid

theorem advance_held (hs : s.Sound) (h : step s (.advance p o) = some s') (hheld : s.Held P)
    (hkeep : ∀ d, P d → P' d)
    (hnew : ∀ r c v rest no, s.calls p = .committing r (some (c, v)) rest →
      P' (r.row (some c) s.store.nextId no)) : s'.Held P' := by
  intro id hid
  obtain hold | ⟨r, c, v, rest, no, hp, htarget, hfind⟩ := advance_reserved hs h hid
  · obtain ⟨t, d, hd, htarget, hP⟩ := hheld id hold
    obtain ⟨⟨st, store⟩, hstep, rfl⟩ := Option.map_eq_some_iff.mp h
    refine ⟨t, d, ?_, htarget, hkeep d hP⟩
    have hm := CallState.step_moves hstep
    generalize s.calls p = st₀ at hm
    cases hm with
    | created hadd => exact Store.dispatch_add hadd hd
    | reserved hfind hversion hadd => exact Store.dispatch_add hadd hd
    | _ => exact hd
  · exact ⟨r.taskId, _, hfind, htarget, hnew r c v rest no hp⟩

/-- The step leaves a `RESERVED` vehicle with a live dispatch: a task is rejected or dead-lettered only
when it spares its vehicle, and a vehicle is reserved only for an open task. -/
def Relinquishes (s : System) : Action → Prop
  | .advance p _ => ∀ r c v rest, s.calls p = .committing r (some (c, v)) rest → s.store.Open r.taskId
  | .setStatus t status => status = .rejected ∨ status = .dlq → s.store.Spares t
  | .decide t .reject _ _ => s.store.Spares t
  | _ => True

theorem held_of_spares (hv : s'.store.vehicles = s.store.vehicles) (hspares : s.store.Spares t)
    (hheld : s.Held s.store.Live)
    (hother : ∀ t' d, t' ≠ t → s.store.dispatches.find t' = some d → s.store.Live d →
      s'.store.dispatches.find t' = some d ∧ s'.store.Live d) : s'.Held s'.store.Live := by
  intro id hid
  have hid' : s.store.IsReserved id := hid.of_same hv
  obtain ⟨t₁, d₁, hd₁, htarget₁, hlive₁⟩ := hheld id hid'
  by_cases ht : t₁ = t
  · subst ht
    obtain ⟨t₂, d₂, hne, hd₂, htarget₂, hlive₂⟩ := hspares d₁ id hd₁ htarget₁ hid'
    obtain ⟨hd₂', hlive₂'⟩ := hother t₂ d₂ hne hd₂ hlive₂
    exact ⟨t₂, d₂, hd₂', htarget₂, hlive₂'⟩
  · obtain ⟨hd₁', hlive₁'⟩ := hother t₁ d₁ ht hd₁ hlive₁
    exact ⟨t₁, d₁, hd₁', htarget₁, hlive₁'⟩

theorem held_of_same (hv : ∀ id, s'.store.IsReserved id → s.store.IsReserved id) (hheld : s.Held P)
    (hd : ∀ t d, s.store.dispatches.find t = some d → P d → ∃ d', s'.store.dispatches.find t = some d' ∧
      d'.targetVehicleId = d.targetVehicleId ∧ P' d') : s'.Held P' := by
  intro id hid
  obtain ⟨t, d, hfind, htarget, hP⟩ := hheld id (hv id hid)
  obtain ⟨d', hfind', htarget', hP'⟩ := hd t d hfind hP
  exact ⟨t, d', hfind', htarget'.trans htarget, hP'⟩

/-- Every reserved vehicle stays the target of a dispatch. -/
theorem step_held (hs : s.Sound) (hheld : s.Held fun _ => True)
    (h : step s a = some s') : s'.Held fun _ => True := by
  have hkeep : s.store.Extends s'.store →
      ∀ t d, s.store.dispatches.find t = some d → True → ∃ d', s'.store.dispatches.find t = some d' ∧
        d'.targetVehicleId = d.targetVehicleId ∧ True := by
    intro hext t d hd _
    obtain ⟨d', hd', -, htarget, -⟩ := hext.dispatch t d hd
    exact ⟨d', hd', htarget, trivial⟩
  cases a with
  | advance p o => exact advance_held hs h hheld (fun _ _ => trivial) fun _ _ _ _ _ _ => trivial
  | call p r =>
    simp only [step] at h
    split at h
    · cases h
      exact hheld
    · cases h
  | interrupt p =>
    obtain ⟨-, r, rfl⟩ := interrupt_eq h
    exact hheld
  | register t =>
    obtain ⟨store, hstore, rfl⟩ := Option.map_eq_some_iff.mp h
    obtain ⟨tasks, -, rfl⟩ := Option.map_eq_some_iff.mp hstore
    exact hheld
  | setStatus t status =>
    obtain ⟨store, hstore, rfl⟩ := Option.map_eq_some_iff.mp h
    obtain ⟨task, -, rfl⟩ := Option.map_eq_some_iff.mp hstore
    exact hheld
  | persistAudit t dispatchId auditId result reason =>
    cases h
    obtain ⟨hv, hd, -, -⟩ := s.store.persistAudit_same t dispatchId auditId result reason
    exact held_of_same (fun id hid => hid.of_same hv) hheld (hkeep (.of_eq hv hd))
  | decide t decision reason auditId =>
    obtain ⟨store, hstore, rfl⟩ := Option.map_eq_some_iff.mp h
    obtain ⟨-, -, -, -, -, -, -, -, -, -, -, -, -, -, hv, -⟩ := Store.decide_ok hstore
    exact held_of_same (fun id hid => hid.of_same hv) hheld (hkeep (Store.decide_extends hstore))
  | operate changes =>
    obtain ⟨store, hstore, rfl⟩ := Option.map_eq_some_iff.mp h
    obtain ⟨hext, -, -, -, hreserved⟩ := Store.operate_ok hstore
    refine held_of_same (fun id hid => ?_) hheld (hkeep hext)
    obtain ⟨v', hv', hr'⟩ := hid
    exact hreserved id v' hv' hr'

theorem advance_live (hs : s.Sound) (hheld : s.Held s.store.Live) (hok : s.Relinquishes (.advance p o))
    (h : step s (.advance p o) = some s') : s'.Held s'.store.Live := by
  refine advance_held hs h hheld (fun d hlive => ?_) fun r c v rest no hp => ?_
  · obtain ⟨⟨st, store⟩, hstep, rfl⟩ := Option.map_eq_some_iff.mp h
    have hm := CallState.step_moves hstep
    generalize s.calls p = st₀ at hm
    cases hm <;> exact hlive
  · have hopen := hok r c v rest hp
    obtain ⟨⟨st, store⟩, hstep, rfl⟩ := Option.map_eq_some_iff.mp h
    have hm := CallState.step_moves hstep
    refine ⟨?_, ?_⟩
    · show r.status ≠ .rejected
      unfold DispatchRequest.status
      split
      · exact fun hne => by cases hne
      · split <;> exact fun hne => by cases hne
    · show Store.Open store r.taskId
      generalize s.calls p = st₀ at hm
      cases hm <;> exact hopen

theorem register_live (hheld : s.Held s.store.Live) (h : step s (.register t) = some s') :
    s'.Held s'.store.Live := by
  obtain ⟨store, hstore, rfl⟩ := Option.map_eq_some_iff.mp h
  obtain ⟨tasks, hadd, rfl⟩ := Option.map_eq_some_iff.mp hstore
  refine held_of_same (fun id hid => hid) hheld fun t' d hd hlive => ⟨d, hd, rfl, hlive.1, ?_⟩
  have hstatus : ({ s.store with tasks := tasks } : Store).taskStatus d.taskId =
      if d.taskId = t then some .pending else s.store.taskStatus d.taskId := by
    unfold Store.taskStatus
    show (tasks.find d.taskId).map TaskRow.status = _
    rw [Table.find_add hadd]
    split <;> rfl
  unfold Store.Open
  rw [hstatus]
  split
  · exact ⟨fun he => (by cases he), fun he => (by cases he)⟩
  · exact hlive.2

theorem setStatus_live {status : TaskStatus} (hheld : s.Held s.store.Live)
    (hok : s.Relinquishes (.setStatus t status)) (h : step s (.setStatus t status) = some s') :
    s'.Held s'.store.Live := by
  obtain ⟨store, hstore, rfl⟩ := Option.map_eq_some_iff.mp h
  obtain ⟨task, hfind, rfl⟩ := Option.map_eq_some_iff.mp hstore
  have hid : task.taskId = t := Table.find_key hfind
  have hfind' : s.store.tasks.find ({ task with status := status } : TaskRow).taskId = some task := by
    show s.store.tasks.find task.taskId = some task
    rw [hid]
    exact hfind
  by_cases hends : status = .rejected ∨ status = .dlq
  · refine held_of_spares (s := s) rfl (hok hends) hheld fun t' d hne hd hlive => ⟨hd, hlive.1, ?_⟩
    have hd' : d.taskId = t' := Table.find_key hd
    refine Store.open_of_ne hfind' rfl ?_ hlive.2
    show d.taskId ≠ task.taskId
    rw [hd', hid]
    exact hne
  · obtain ⟨hrejected, hdlq⟩ := not_or.mp hends
    refine held_of_same (fun id hid => hid) hheld fun t' d hd hlive => ⟨d, hd, rfl, hlive.1, ?_⟩
    by_cases ht : d.taskId = task.taskId
    · rw [ht]
      show Store.Open _ ({ task with status := status } : TaskRow).taskId
      exact Store.open_of_status hfind' rfl hrejected hdlq
    · exact Store.open_of_ne hfind' rfl ht hlive.2

theorem decide_live {decision : ReviewDecision} {reason : Option String} {auditId : ℕ}
    (hheld : s.Held s.store.Live) (hok : s.Relinquishes (.decide t decision reason auditId))
    (h : step s (.decide t decision reason auditId) = some s') : s'.Held s'.store.Live := by
  obtain ⟨store, hstore, rfl⟩ := Option.map_eq_some_iff.mp h
  obtain ⟨task, task', dispatch, dispatch', hfind, -, ht', hstatus', hdispatch, hd', -, htarget, -,
    hdstatus, hv, htasks, hdispatches⟩ := Store.decide_ok hstore
  have hfind' : s.store.tasks.find task'.taskId = some task := by
    rw [ht']
    exact hfind
  have hother : ∀ t₁ d, t₁ ≠ t → s.store.dispatches.find t₁ = some d → s.store.Live d →
      store.dispatches.find t₁ = some d ∧ store.Live d := by
    intro t₁ d hne hd hlive
    have hdt : d.taskId = t₁ := Table.find_key hd
    refine ⟨?_, hlive.1, Store.open_of_ne hfind' htasks ?_ hlive.2⟩
    · rw [hdispatches, Table.find_replace_ne _ _ fun he => hne (he.trans hd')]
      exact hd
    · rw [hdt, ht']
      exact hne
  cases decision with
  | reject => exact held_of_spares hv hok hheld hother
  | approve =>
    refine held_of_same (fun id hid => hid.of_same hv) hheld fun t₁ d hd hlive => ?_
    by_cases hne : t₁ = t
    · subst hne
      rw [hdispatch] at hd
      cases hd
      refine ⟨dispatch', ?_, htarget, ?_, ?_⟩
      · show store.dispatches.find t₁ = some dispatch'
        rw [hdispatches, ← hd']
        exact Table.find_replace_self (by rw [hd']; exact hdispatch)
      · rw [hdstatus]
        exact fun he => by cases he
      · show store.Open dispatch'.taskId
        rw [hd', ← ht']
        refine Store.open_of_status hfind' htasks ?_ ?_
        · rw [hstatus']
          exact fun he => by cases he
        · rw [hstatus']
          exact fun he => by cases he
    · obtain ⟨hd₁, hlive₁⟩ := hother t₁ d hne hd hlive
      exact ⟨d, hd₁, rfl, hlive₁⟩

/-- A step that relinquishes what it closes leaves every `RESERVED` vehicle with a live dispatch. -/
theorem step_live (hs : s.Sound) (hheld : s.Held s.store.Live) (hok : s.Relinquishes a)
    (h : step s a = some s') : s'.Held s'.store.Live := by
  cases a with
  | advance p o => exact advance_live hs hheld hok h
  | call p r =>
    simp only [step] at h
    split at h
    · cases h
      exact hheld
    · cases h
  | interrupt p =>
    obtain ⟨-, r, rfl⟩ := interrupt_eq h
    exact hheld
  | register t => exact register_live hheld h
  | setStatus t status => exact setStatus_live hheld hok h
  | persistAudit t dispatchId auditId result reason =>
    cases h
    obtain ⟨hv, hd, -, htasks⟩ := s.store.persistAudit_same t dispatchId auditId result reason
    refine held_of_same (fun id hid => hid.of_same hv) hheld fun t' d hfind hlive =>
      ⟨d, ?_, rfl, hlive.1, hlive.2.of_same htasks⟩
    show (s.store.persistAudit t dispatchId auditId result reason).dispatches.find t' = some d
    rw [hd]
    exact hfind
  | decide t decision reason auditId => exact decide_live hheld hok h
  | operate changes =>
    obtain ⟨store, hstore, rfl⟩ := Option.map_eq_some_iff.mp h
    obtain ⟨-, htasks, hd, -, hreserved⟩ := Store.operate_ok hstore
    refine held_of_same (fun id hid => ?_) hheld fun t' d hfind hlive =>
      ⟨d, ?_, rfl, hlive.1, hlive.2.of_same htasks⟩
    · obtain ⟨v', hv', hr'⟩ := hid
      exact hreserved id v' hv' hr'
    · show store.dispatches.find t' = some d
      rw [hd]
      exact hfind

/-- **Every reserved vehicle is held.**  From any tables in which no vehicle is `RESERVED`, every
`RESERVED` vehicle is the target of some dispatch; and as long as every step leaves a `RESERVED`
vehicle with a live dispatch, of one that is not rejected and whose task is neither rejected nor
dead-lettered. -/
theorem reserved_is_held {s₀ s : System} {run : List Action} (h₀ : s₀.Initial)
    (hfree : ∀ id, ¬ s₀.store.IsReserved id) (hrun : exec step s₀ run = some s) :
    (∀ id, s.store.IsReserved id →
      ∃ d ∈ s.store.dispatches.rows, d.targetVehicleId = some id) ∧
    (Meets step Relinquishes s₀ run → ∀ id, s.store.IsReserved id →
      ∃ d ∈ s.store.dispatches.rows, d.targetVehicleId = some id ∧ d.status ≠ .rejected ∧
        s.store.taskStatus d.taskId ≠ some .rejected ∧ s.store.taskStatus d.taskId ≠ some .dlq) := by
  have hempty : ∀ P, s₀.Held P := fun P id hid => absurd hid (hfree id)
  refine ⟨fun id hid => ?_, fun hok id hid => ?_⟩
  · obtain ⟨-, hheld⟩ : s.Sound ∧ s.Held fun _ => True :=
      exec_preserves (I := fun s => s.Sound ∧ s.Held fun _ => True)
        (fun _ _ _ hI hstep => ⟨step_sound hI.1 hstep, step_held hI.1 hI.2 hstep⟩) hrun
        ⟨h₀.sound, hempty _⟩
    obtain ⟨t, d, hd, htarget, -⟩ := hheld id hid
    exact ⟨d, Table.find_mem hd, htarget⟩
  · obtain ⟨-, hheld⟩ : s.Sound ∧ s.Held s.store.Live :=
      exec_invariant (I := fun s => s.Sound ∧ s.Held s.store.Live)
        (fun _ _ _ hI hr hstep => ⟨step_sound hI.1 hstep, step_live hI.1 hI.2 hr hstep⟩) hok hrun
        ⟨h₀.sound, hempty _⟩
    obtain ⟨t, d, hd, htarget, hstatus, hrejected, hdlq⟩ := hheld id hid
    exact ⟨d, Table.find_mem hd, htarget, hstatus, hrejected, hdlq⟩

/-! ### An approval and a rejection -/

/-- A task whose dispatch reserves the first vehicle, and that waits for a review. -/
def toReview : List Action :=
  [.call 0 { exampleRequest "TASK-1" with requiresManualReview := true }] ++
    List.replicate 3 (.advance 0 (through "DSP-1")) ++ [.setStatus "TASK-1" .reviewRequired]

def reviewed (decision : ReviewDecision) : List Action :=
  toReview ++ [.decide "TASK-1" decision (some "checked by hand") 1]

/-- A decidable part of `Relinquishes`: nothing is rejected or dead-lettered, and calls are for tasks
in progress. -/
def unrelenting (s : System) : Action → Bool
  | .advance p _ =>
    match s.calls p with
    | .committing r _ _ => s.store.taskStatus r.taskId = some .processing
    | _ => true
  | .setStatus _ status => decide (status ≠ .rejected ∧ status ≠ .dlq)
  | .decide _ .reject _ _ => false
  | _ => true

theorem relinquishes_of_unrelenting (s : System) (a : Action) (h : s.unrelenting a = true) :
    s.Relinquishes a := by
  cases a with
  | advance p o =>
    intro r c v rest hp
    have hstatus : s.store.taskStatus r.taskId = some .processing := by
      simpa [unrelenting, hp] using h
    unfold Store.Open
    rw [hstatus]
    exact ⟨fun he => (by cases he), fun he => (by cases he)⟩
  | setStatus t status =>
    intro hends
    obtain ⟨hrejected, hdlq⟩ := of_decide_eq_true h
    rcases hends with he | he
    · exact absurd he hrejected
    · exact absurd he hdlq
  | decide t decision reason auditId =>
    cases decision with
    | reject => cases h
    | approve => trivial
  | _ => trivial

theorem exampleSystem_free (id : String) : ¬ exampleSystem.store.IsReserved id := by
  rintro ⟨v, hv, hreserved⟩
  have hmem : v ∈ exampleSystem.store.vehicles.rows := Table.find_mem hv
  have hall : ∀ v ∈ exampleSystem.store.vehicles.rows, v.status ≠ .reserved := by decide
  exact hall v hmem hreserved

/-- After an approval the vehicle is held by a live dispatch. -/
theorem reserved_is_held_approval : ∃ s, exec step exampleSystem (reviewed .approve) = some s ∧
    s.store.IsReserved "V-1" ∧ ∃ d ∈ s.store.dispatches.rows, d.targetVehicleId = some "V-1" ∧
      d.status ≠ .rejected ∧ s.store.taskStatus d.taskId ≠ some .rejected ∧
      s.store.taskStatus d.taskId ≠ some .dlq := by
  have hx : ((exec step exampleSystem (reviewed .approve)).map fun s =>
      decide ((s.store.vehicles.find "V-1").map FleetVehicle.status = some .reserved)) = some true := by
    decide +kernel
  have hok : Meets step (fun s a => s.unrelenting a = true) exampleSystem (reviewed .approve) := by
    decide +kernel
  obtain ⟨s, hs, hx⟩ := Option.map_eq_some_iff.mp hx
  have hreserved : s.store.IsReserved "V-1" := Option.map_eq_some_iff.mp (of_decide_eq_true hx)
  exact ⟨s, hs, hreserved, (reserved_is_held (fun _ => rfl) exampleSystem_free hs).2
    (hok.mono relinquishes_of_unrelenting) "V-1" hreserved⟩

/-- **A rejection leaves the vehicle reserved**, with no dispatch but the rejected one. -/
theorem rejected_keeps_vehicle :
    ¬ ∀ (run : List Action) (s : System), exec step exampleSystem run = some s →
      ∀ id, s.store.IsReserved id → ∃ d ∈ s.store.dispatches.rows, d.targetVehicleId = some id ∧
        d.status ≠ .rejected ∧ s.store.taskStatus d.taskId ≠ some .rejected ∧
        s.store.taskStatus d.taskId ≠ some .dlq := by
  intro hheld
  have hx : ((exec step exampleSystem (reviewed .reject)).map fun s =>
      decide ((s.store.vehicles.find "V-1").map FleetVehicle.status = some .reserved ∧
        ∀ d ∈ s.store.dispatches.rows, d.status = .rejected)) = some true := by
    decide +kernel
  obtain ⟨s, hs, hx⟩ := Option.map_eq_some_iff.mp hx
  obtain ⟨hreserved, hrejected⟩ := of_decide_eq_true hx
  obtain ⟨d, hd, -, hstatus, -⟩ := hheld _ s hs "V-1" (Option.map_eq_some_iff.mp hreserved)
  exact hstatus (hrejected d hd)

end System

end CountyFlow.Dispatch
