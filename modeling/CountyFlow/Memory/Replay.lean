import CountyFlow.Memory.Overwrite

/-!
# Replaying a mutation

`begin_or_replay` commits the row before the policy is asked.  A call that ends before
`record_decision` has committed leaves a row without a decision, and of such a row neither a replay
nor a resume can make anything.
-/

namespace CountyFlow.Memory

open CountyFlow.Lib Function

variable {c : MutationCommand}

theorem MutationCommand.ext_payload {c' : MutationCommand} (hkey : c.idempotencyKey = c'.idempotencyKey)
    (hpayload : c.payloadFingerprint = c'.payloadFingerprint) : c = c' := by
  cases c
  cases c'
  simp only [payloadFingerprint, MutationCommand.mk.injEq] at hpayload hkey ⊢
  exact ⟨hkey, hpayload.2⟩

variable {s s' : Store} {st st' : CallState} {i : ℕ} {row' row : Mutation} {factKey : String}
  {locks : String → Option ℕ} {h' : History} {sys' m : System} {a : Action} {acts : List Action}
  {ending : Except MemoryError MutationResult} {now : ℤ}

namespace System

/-! ### Keys and commands -/

/-- Commands in rows and calls have passed `_validate_command`, and a key names one row. -/
structure Keyed (sys : System) : Prop where
  valid : ∀ i row, sys.store.mutations.find i = some row → row.command.validated = true
  proposed : ∀ call st c, sys.calls call = some st → st.proposal = some c →
    c.validated = true
  unique : ∀ i j row row', sys.store.mutations.find i = some row →
    sys.store.mutations.find j = some row' →
    row.command.idempotencyKey = row'.command.idempotencyKey → i = j

theorem keyed_initial : Keyed initial where
  valid := fun i row h => by cases h
  proposed := fun call st c h => by cases h
  unique := fun i j row row' h => by cases h

theorem command_of_effect (he : st.Effect s s') (hrow' : s'.mutations.find i = some row') :
    (∃ row, s.mutations.find i = some row ∧ row'.command = row.command) ∨
      ∃ c factKey, st = .beginning c factKey ∧ row'.command = c ∧ s.mutations.find i = none ∧
        i = s.nextId := by
  cases hfind : s.mutations.find i with
  | none =>
    obtain ⟨hi, -, c, factKey, hst, rfl⟩ := he.new_row hrow' hfind
    exact .inr ⟨c, factKey, hst, rfl, rfl, hi⟩
  | some row =>
    obtain ⟨row₁, hrow₁, hcases⟩ := he.row hfind
    rw [hrow'] at hrow₁
    cases hrow₁
    refine .inl ⟨row, rfl, ?_⟩
    rcases hcases with rfl | ⟨c, factKey, d, current, -, rfl⟩ |
      ⟨w, specs, error, phase, -, -, hcore⟩
    · rfl
    · rfl
    · exact Mutation.command_of_core hcore

theorem new_key (he : CallState.Effect s (.beginning c factKey) s') (hchanged : s' ≠ s) :
    ∀ i row, s.mutations.find i = some row → row.command.idempotencyKey ≠ c.idempotencyKey := by
  cases he with
  | nothing => exact absurd rfl hchanged
  | begun hnew hadd => exact fun i row hrow => hnew row (Table.find_mem hrow)

variable {sys : System}

theorem Keyed.of_effect (hkeyed : Keyed sys) {call : ℕ} (hst : sys.calls call = some st)
    (he : st.Effect sys.store s') (hproposal : st'.proposal = none) :
    Keyed ⟨s', locks, update sys.calls call (some st'), h'⟩ := by
  refine ⟨fun i row' hrow' => ?_, fun a sa c ha hc => ?_, fun i j row row' hi hj hkey => ?_⟩
  · rcases command_of_effect he hrow' with ⟨row, hrow, hcommand⟩ | ⟨c, factKey, rfl, hcommand, -⟩
    · rw [hcommand]
      exact hkeyed.valid i row hrow
    · rw [hcommand]
      exact hkeyed.proposed call _ c hst rfl
  · rcases calls_update ha with ⟨-, rfl⟩ | ⟨-, ha⟩
    · rw [hproposal] at hc
      cases hc
    · exact hkeyed.proposed a sa c ha hc
  · have hnew : ∀ {i : ℕ} {row : Mutation} {c : MutationCommand} {factKey : String},
        st = .beginning c factKey → s'.mutations.find sys.store.nextId ≠ none →
        sys.store.mutations.find sys.store.nextId = none →
        sys.store.mutations.find i = some row →
        row.command.idempotencyKey ≠ c.idempotencyKey := by
      intro i row c factKey hbegin hsome hnone hrow
      subst hbegin
      refine new_key he (fun hsame => ?_) i row hrow
      rw [hsame, hnone] at hsome
      exact hsome rfl
    rcases command_of_effect he hi with ⟨rowi, hrowi, hci⟩ | ⟨ci, ki, hsti, hci, hnonei, rfl⟩
    · rcases command_of_effect he hj with ⟨rowj, hrowj, hcj⟩ | ⟨cj, kj, hstj, hcj, hnonej, rfl⟩
      · rw [hci, hcj] at hkey
        exact hkeyed.unique i j rowi rowj hrowi hrowj hkey
      · rw [hci, hcj] at hkey
        exact absurd hkey (hnew hstj (by rw [hj]; simp) hnonej hrowi)
    · rcases command_of_effect he hj with ⟨rowj, hrowj, hcj⟩ | ⟨cj, kj, -, -, -, rfl⟩
      · rw [hci, hcj] at hkey
        exact absurd hkey.symm (hnew hsti (by rw [hi]; simp) hnonei hrowj)
      · rfl

variable {v : MutationService}

/-- A key goes on naming one row. -/
theorem Keyed.step (hkeyed : Keyed sys) (h : System.step v sys a = some sys') : Keyed sys' := by
  cases step_moves h with
  | @quiet _ call st' locks hquiet =>
    refine ⟨hkeyed.valid, fun a sa c ha hc => ?_, hkeyed.unique⟩
    rcases calls_update ha with ⟨-, rfl⟩ | ⟨-, ha⟩
    · generalize hst : sys.calls call = o at hquiet
      cases hquiet with
      | starts request =>
        cases request with
        | resumeMutation mutationId => cases hc
        | mutate c' =>
          simp only [startState] at hc
          split at hc
          · cases hc
          · rename_i hcategory
            split at hc
            · cases hc
            · rename_i htargets
              cases hc
              rw [MutationCommand.validated, decide_eq_true_iff]
              exact ⟨not_not.mp hcategory, not_not.mp htargets⟩
      | acquires c' factKey => exact hkeyed.proposed call _ c hst hc
      | resumes stored => cases hc
      | ends ending hlock => cases hc
    · exact hkeyed.proposed a sa c ha hc
  | advances hst hadv =>
    exact hkeyed.of_effect hst (CallState.advance_effect hadv)
      (CallState.advance_onward hadv).proposal
  | @crashes call effect st hst =>
    exact hkeyed.of_effect hst (CallState.effect_if sys.store st effect) rfl
  | expires => exact ⟨hkeyed.valid, hkeyed.proposed, hkeyed.unique⟩

theorem keyed_of_exec (h : exec (System.step v) initial acts = some sys) : Keyed sys :=
  exec_preserves (fun _ _ _ hs hstep => hs.step hstep) h keyed_initial

/-! ### A call alone -/

/-- So many steps of a call, with nothing in its way, bring it to its end and leave the store as it
is. -/
def Ends (v : MutationService) (sys : System) (call n : ℕ)
    (ending : Except MemoryError MutationResult) : Prop :=
  ∃ sys', exec (System.step v) sys (goes call n) = some sys' ∧
    sys'.calls call = some (.done ending) ∧ sys'.store = sys.store

def Answers (v : MutationService) (sys : System) (call : ℕ) (request : Request)
    (ending : Except MemoryError MutationResult) : Prop :=
  ∃ sys', exec (System.step v) sys (.start call request :: goes call 4) = some sys' ∧
    sys'.calls call = some (.done ending) ∧ sys'.store = sys.store

theorem Ends.cons {call n : ℕ} (hstep : System.step v sys (.advance call (.goes 0)) = some m)
    (hstore : m.store = sys.store) (h : Ends v m call n ending) : Ends v sys call (n + 1) ending := by
  obtain ⟨sys', hrun, hdone, hsame⟩ := h
  refine ⟨sys', ?_, hdone, hsame.trans hstore⟩
  exact exec_cons_eq_some.mpr ⟨m, hstep, hrun⟩

theorem Ends.answers {call : ℕ} {request : Request} (hstep : System.step v sys (.start call request) = some m)
    (hstore : m.store = sys.store) (h : Ends v m call 4 ending) : Answers v sys call request ending := by
  obtain ⟨sys', hrun, hdone, hsame⟩ := h
  exact ⟨sys', exec_cons_eq_some.mpr ⟨m, hstep, hrun⟩, hdone, hsame.trans hstore⟩

section OneCall

variable {v : MutationService} {sys : System} {call : ℕ}

theorem step_start (hcall : sys.calls call = none) (request : Request) :
    System.step v sys (.start call request) = some { sys with
      calls := update sys.calls call (some (startState v request)) } := by
  simp only [System.step, hcall]

theorem step_acquiring (hcall : sys.calls call = some (.acquiring c factKey))
    (hlock : sys.locks factKey = none) :
    System.step v sys (.advance call (.goes now)) = some { sys with
      locks := update sys.locks factKey (some call)
      calls := update sys.calls call (some (.beginning c factKey)) } := by
  simp only [System.step, hcall, Option.bind_some, acquire, hlock, if_true]

theorem step_waiting {stored : Mutation} (hcall : sys.calls call = some (.waiting stored))
    (hlock : sys.locks stored.factKey = none) :
    System.step v sys (.advance call (.goes now)) = some { sys with
      locks := update sys.locks stored.factKey (some call)
      calls := update sys.calls call (some (.resuming stored)) } := by
  simp only [System.step, hcall, Option.bind_some, acquire, hlock, if_true]

theorem step_releasing (hcall : sys.calls call = some (.releasing factKey ending)) :
    System.step v sys (.advance call (.goes now)) = some (sys.release call factKey ending) := by
  simp only [System.step, hcall, Option.bind_some]

theorem step_goes (hcall : sys.calls call = some st) (hlock : st.locking = false)
    (hstep : st.step v sys.store now = some (s', st')) :
    System.step v sys (.advance call (.goes now)) = some (sys.moved v call st st' (.goes now) s') := by
  have hadv : st.advance v sys.store (.goes now) = some (s', st') := hstep
  simp only [System.step, hcall, Option.bind_some]
  cases st with
  | acquiring | waiting | releasing => cases hlock
  | _ => simp only [hadv, Option.map_some]

theorem ends_of_releasing
    (hcall : sys.calls call = some (.releasing factKey ending)) : Ends v sys call 1 ending := by
  refine .cons (step_releasing hcall) rfl ⟨_, rfl, ?_, rfl⟩
  exact update_self _ _ _

end OneCall

theorem Keyed.find (hkeyed : Keyed sys) (hrow : sys.store.mutations.find i = some row) :
    sys.store.mutations.rows.find? (fun r => r.command.idempotencyKey = row.command.idempotencyKey)
      = some row := by
  cases hfound : sys.store.mutations.rows.find? fun r =>
      decide (r.command.idempotencyKey = row.command.idempotencyKey) with
  | none =>
    have := List.find?_eq_none.mp hfound row (Table.find_mem hrow)
    simp at this
  | some row' =>
    have hkey : row'.command.idempotencyKey = row.command.idempotencyKey := by
      simpa using List.find?_some hfound
    have hrow' := Table.find_of_mem (List.mem_of_find?_eq_some hfound)
    have hid := hkeyed.unique _ _ _ _ hrow' hrow hkey
    rw [hid, hrow] at hrow'
    rw [Option.some.inj hrow']

theorem replay_answers (hs : Sound v sys) (hkeyed : Keyed sys) (hrow : sys.store.mutations.find i = some row)
    {call : ℕ} (hcall : sys.calls call = none)
    (hlock : sys.locks row.factKey = none) : Answers v sys call (.mutate row.command) row.result := by
  have hkey : v.factKey row.command = row.factKey := (hs.rows i row hrow).factKey.symm
  have hvalid := hkeyed.valid i row hrow
  rw [MutationCommand.validated, decide_eq_true_iff] at hvalid
  have hstart : startState v (.mutate row.command) = .acquiring row.command row.factKey := by
    simp only [startState]
    rw [if_neg (not_not.mpr hvalid.1), if_neg (not_not.mpr hvalid.2), hkey]
  have hbegin : sys.store.beginOrReplay row.command row.factKey
      = .ok (sys.store, row.mutationId, true) := by
    unfold Store.beginOrReplay
    rw [hkeyed.find hrow]
    exact if_pos rfl
  have hid : sys.store.mutations.find row.mutationId = some row := by
    rw [Table.find_key hrow]
    exact hrow
  have hget : (sys.store.getMutation row.mutationId).bind Mutation.result = row.result := by
    simp only [Store.getMutation, hid]
    rfl
  refine Ends.answers (step_start hcall _) rfl ?_
  rw [hstart]
  refine .cons (step_acquiring (update_self _ _ _) hlock) rfl ?_
  have hbeginning : CallState.step v sys.store 0 (.beginning row.command row.factKey)
      = some (sys.store, .replaying row.mutationId row.factKey) := by
    simp only [CallState.step]
    rw [hbegin]
  refine .cons (step_goes (update_self _ _ _) rfl hbeginning) rfl ?_
  have hreplaying : CallState.step v sys.store 0 (.replaying row.mutationId row.factKey)
      = some (sys.store, .releasing row.factKey row.result) := by
    simp only [CallState.step]
    rw [hget]
  refine .cons (step_goes (update_self _ _ _) rfl hreplaying) rfl ?_
  exact ends_of_releasing (update_self _ _ _)

/-- What a resume of a mutation without a decision raises. -/
def incomplete : MemoryError := .validation "Stored memory mutation decision is incomplete"

theorem resume_answers (hs : Sound v sys) (hrow : sys.store.mutations.find i = some row)
    (hnone : row.decision = none) {call : ℕ} (hcall : sys.calls call = none)
    (hlock : sys.locks row.factKey = none) : Answers v sys call (.resumeMutation i) (.error incomplete) := by
  have hsound := hs.rows i row hrow
  have hstatus : row.status = .pending := hsound.undecided hnone
  refine Ends.answers (step_start hcall _) rfl ?_
  have hreading : CallState.step v sys.store 0 (.reading i) = some (sys.store, .waiting row) := by
    simp only [CallState.step, Store.getMutation, hrow, hstatus]
    rfl
  refine .cons (step_goes (update_self _ _ _) rfl hreading) rfl ?_
  refine .cons (step_waiting (update_self _ _ _) hlock) rfl ?_
  have hresuming : CallState.step v sys.store 0 (.resuming row)
      = some (sys.store, .releasing row.factKey (.error incomplete)) := by
    simp only [CallState.step, MutationService.resume, hnone]
    rw [if_neg (not_not.mpr hsound.factKey.symm)]
    rfl
  refine .cons (step_goes (update_self _ _ _) rfl hresuming) rfl ?_
  exact ends_of_releasing (update_self _ _ _)

/-! ### Calls that are cut off -/

/-- Between `begin_or_replay` and `record_decision` the call goes on, and the policy finds the version
the command expects. -/
def unbroken (sys : System) : Action → Bool
  | .advance call answer =>
    match sys.calls call, answer with
    | some (.loading _ c factKey), .goes _ =>
      c.expectedVersion = (sys.store.facts.find factKey).map Fact.version
    | _, .goes _ => true
    | some st, _ => st.creating.isNone
    | none, _ => true
  | .crash call _ => ∀ st ∈ sys.calls call, st.creating.isNone
  | .start .. | .expire _ => true

/-- Every mutation without a decision is still in the hands of the call that began it. -/
def Held (sys : System) : Prop :=
  ∀ i row, sys.store.mutations.find i = some row → row.decision = none →
    ∃ call st, sys.calls call = some st ∧ st.creating = some i

/-- Nobody will decide the mutation. -/
def Stuck (sys : System) (i : ℕ) : Prop :=
  ∃ row, sys.store.mutations.find i = some row ∧ row.decision = none ∧
    ∀ call st, sys.calls call = some st → st.creating ≠ some i

/-- The same key and payload, sent again when the first call is past its decision or over, on a free
lock, answers with the result the row has. -/
def Replayable (v : MutationService) (sys : System) : Prop :=
  ∀ i row, sys.store.mutations.find i = some row →
    (∀ call st, sys.calls call = some st → st.creating ≠ some i) →
    ∀ call c, sys.calls call = none → sys.locks row.factKey = none →
      c.idempotencyKey = row.command.idempotencyKey →
      c.payloadFingerprint = row.command.payloadFingerprint →
      ∃ result, row.result = .ok result ∧ Answers v sys call (.mutate c) (.ok result)

theorem undecided_of_effect {a : Answer} (hadv : st.advance v s a = some (s', st'))
    (hrow' : s'.mutations.find i = some row') (hnone : row'.decision = none) :
    (∃ row, s.mutations.find i = some row ∧ row.decision = none) ∨ st'.creating = some i := by
  have he := CallState.advance_effect hadv
  cases hfind : s.mutations.find i with
  | some row =>
    obtain ⟨row₁, hrow₁, hcases⟩ := he.row hfind
    rw [hrow'] at hrow₁
    cases hrow₁
    refine .inl ⟨row, rfl, ?_⟩
    rcases hcases with rfl | ⟨c, factKey, d, current, -, rfl⟩ |
      ⟨w, specs, error, phase, -, -, hcore⟩
    · exact hnone
    · cases hnone
    · rw [← Mutation.decision_of_core hcore]
      exact hnone
  | none =>
    obtain ⟨hi, hnext, c, factKey, rfl, -⟩ := he.new_row hrow' hfind
    refine .inr ?_
    cases a with
    | goes now =>
      simp only [CallState.advance, CallState.step, Option.some.injEq,
        Store.beginOrReplay] at hadv
      split at hadv <;> rename_i hbegin
      · split at hbegin
        · split at hbegin <;> cases hbegin
          cases hadv
          rw [hfind] at hrow'
          cases hrow'
        · split at hbegin <;> cases hbegin
      · split at hbegin
        · split at hbegin <;> cases hbegin
        · split at hbegin <;> cases hbegin
          cases hadv
          rw [hi]
          rfl
      · cases hadv
        rw [hfind] at hrow'
        cases hrow'
    | fails => cases hadv
    | raises effect =>
      cases hadv
      rw [CallState.effect_mutations, hfind] at hrow'
      cases hrow'

theorem creating_of_unbroken (hs : Sound v sys) {call : ℕ} {a : Answer} (hst : sys.calls call = some st)
    (hadv : st.advance v sys.store a = some (s', st')) (hok : unbroken sys (.advance call a) = true)
    (hi : st.creating = some i) (hrow' : s'.mutations.find i = some row') (hnone : row'.decision = none) :
    st'.creating = some i := by
  have hk := hs.knows _ _ hst
  simp only [unbroken, hst] at hok
  cases a with
  | goes now =>
    cases st with
    | requesting mutationId c factKey =>
      cases hadv
      exact hi
    | loading mutationId c factKey =>
      simp only [decide_eq_true_eq] at hok
      have hload : (sys.store.loadFact factKey).map FactSnapshot.version
          = (sys.store.facts.find factKey).map Fact.version := by
        rw [Store.loadFact, Option.map_map]
        rfl
      obtain ⟨d, hd⟩ := evaluate_of_expectedVersion (hok.trans hload.symm) factKey
        v.policySettings now
      simp only [CallState.advance, CallState.step, hd, Option.some.injEq,
        Prod.mk.injEq] at hadv
      obtain ⟨-, rfl⟩ := hadv
      exact hi
    | deciding mutationId c factKey d current =>
      obtain ⟨row, hrow, -⟩ := hk
      obtain rfl : mutationId = i := Option.some.inj hi
      simp only [CallState.advance, CallState.step, Option.some.injEq,
        Store.recordDecision] at hadv
      obtain ⟨row₁, hrow₁, -, rfl⟩ | ⟨-, -, hlost⟩ := CallState.committed_setMutation hadv
      · have hid : (row₁.decided d).mutationId = row₁.mutationId := rfl
        rw [find_replace_row hrow₁ hid] at hrow'
        cases hrow'
        cases hnone
      · rw [hrow] at hlost
        cases hlost
    | _ => cases hi
  | fails | raises =>
    have hcreating : st.creating.isNone = true := by
      cases st <;> exact hok
    rw [hi] at hcreating
    cases hcreating

/-- An unbroken step leaves every undecided mutation with the call that began it. -/
theorem Held.step (hs : Sound v sys) (hheld : Held sys) (hok : unbroken sys a = true)
    (h : System.step v sys a = some sys') : Held sys' := by
  cases step_moves h with
  | @quiet _ call st' locks hquiet =>
    intro i row hrow hnone
    obtain ⟨c, st, hst, hi⟩ := hheld i row hrow hnone
    refine ⟨c, st, ?_, hi⟩
    show update sys.calls call (some st') c = some st
    rw [update_of_ne]
    · exact hst
    · -- the call that moves has nothing in hand
      intro hc
      subst hc
      rw [hst] at hquiet
      cases hquiet with
      | acquires | resumes => cases hi
      | ends ending hlock =>
        cases st with
        | acquiring | waiting | releasing => cases hi
        | _ => cases hlock
  | @advances call answer st st' s' hst hadv =>
    intro i row' hrow' hnone
    rcases undecided_of_effect hadv hrow' hnone with ⟨row, hrow, hnone₀⟩ | hi
    · obtain ⟨c, sc, hsc, hi⟩ := hheld i row hrow hnone₀
      by_cases hc : c = call
      · subst hc
        rw [hst] at hsc
        cases hsc
        refine ⟨c, st', update_self _ _ _, ?_⟩
        exact creating_of_unbroken hs hst hadv hok hi hrow' hnone
      · exact ⟨c, sc, (update_of_ne hc _ _).trans hsc, hi⟩
    · exact ⟨call, st', update_self _ _ _, hi⟩
  | @crashes call effect st hst =>
    intro i row' hrow' hnone
    have hrow : sys.store.mutations.find i = some row' := by
      rw [← CallState.effect_mutations sys.store st effect]
      exact hrow'
    obtain ⟨c, sc, hsc, hi⟩ := hheld i row' hrow hnone
    refine ⟨c, sc, (update_of_ne ?_ _ _).trans hsc, hi⟩
    intro hc
    subst hc
    simp only [unbroken, decide_eq_true_eq] at hok
    have := hok sc hsc
    rw [hi] at this
    cases this
  | expires => exact hheld

theorem held_of_exec (h : exec (System.step v) initial acts = some sys)
    (hok : Meets (System.step v) (fun s a => unbroken s a = true) initial acts) : Held sys := by
  have hboth : Sound v sys ∧ Held sys :=
    exec_invariant (I := fun sys => Sound v sys ∧ Held sys)
      (fun _ _ _ hs hok hstep => ⟨hs.1.step hstep, hs.2.step hs.1 hok hstep⟩) hok h
      ⟨sound_initial v, fun i row hrow => (by cases hrow)⟩
  exact hboth.2

/-- A mutation that nobody will decide stays so. -/
theorem Stuck.step (hs : Sound v sys) (hstuck : Stuck sys i)
    (h : System.step v sys a = some sys') : Stuck sys' i := by
  obtain ⟨row, hrow, hnone, hfree⟩ := hstuck
  have hcalls : ∀ {call : ℕ} {st' : CallState}, st'.creating ≠ some i → ∀ c sc,
      update sys.calls call (some st') c = some sc → sc.creating ≠ some i := by
    intro call st' hst' c sc hsc
    rcases calls_update hsc with ⟨-, rfl⟩ | ⟨-, hsc⟩
    · exact hst'
    · exact hfree c sc hsc
  cases step_moves h with
  | quiet hquiet =>
    refine ⟨row, hrow, hnone, hcalls ?_⟩
    rw [hquiet.creating]
    simp
  | advances hst hadv =>
    obtain ⟨row', hrow', hcore⟩ := (CallState.advance_effect hadv).row_core (hs.knows _ _ hst)
      hrow (.inr (hfree _ _ hst))
    refine ⟨row', hrow', (Mutation.decision_of_core hcore).trans hnone, hcalls fun hi => ?_⟩
    rcases (CallState.advance_onward hadv).creating i hi with hold | rfl
    · exact hfree _ _ hst hold
    · exact lt_irrefl _ (hs.fresh _ row hrow)
  | @crashes call effect st hst =>
    refine ⟨row, ?_, hnone, hcalls fun hi => (by cases hi)⟩
    show (if effect then st.effect sys.store else sys.store).mutations.find i = some row
    rw [CallState.effect_mutations]
    exact hrow
  | expires => exact ⟨row, hrow, hnone, hfree⟩

theorem stuck_of_dropped (hs : Sound v sys) {call : ℕ} (hst : sys.calls call = some st)
    (hi : st.creating = some i) (hst' : st'.creating = none) (hsame : s'.mutations = sys.store.mutations) :
    Stuck ⟨s', locks, update sys.calls call (some st'), h'⟩ i := by
  have hk := hs.knows _ _ hst
  have hrow : ∃ row, sys.store.mutations.find i = some row ∧ row.decision = none := by
    cases st with
    | requesting | loading =>
      cases hi
      obtain ⟨row, hrow, -, -, hnone⟩ := hk
      exact ⟨row, hrow, hnone⟩
    | deciding =>
      cases hi
      obtain ⟨row, hrow, -, -, hnone, -⟩ := hk
      exact ⟨row, hrow, hnone⟩
    | _ => cases hi
  obtain ⟨row, hrow, hnone⟩ := hrow
  refine ⟨row, ?_, hnone, fun c sc hsc hci => ?_⟩
  · show s'.mutations.find i = some row
    rw [hsame]
    exact hrow
  · rcases calls_update hsc with ⟨-, rfl⟩ | ⟨hne, hsc⟩
    · rw [hst'] at hci
      cases hci
    · exact hne (hs.sole c call sc st i hsc hst hci hi)

theorem broken_cases (hbroken : unbroken sys a = false) :
    ∃ call st i, sys.calls call = some st ∧ st.creating = some i ∧
      ((∃ effect, a = .crash call effect) ∨
        (∃ answer, a = .advance call answer ∧ ∀ now, answer ≠ .goes now) ∨
        ∃ c factKey now, st = .loading i c factKey ∧ a = .advance call (.goes now) ∧
          c.expectedVersion ≠ (sys.store.facts.find factKey).map Fact.version) := by
  have hsome : ∀ {st : CallState}, st.creating.isNone = false → ∃ i, st.creating = some i := by
    intro st hst
    exact Option.isSome_iff_exists.mp (by rw [← Option.not_isNone, hst]; rfl)
  cases a with
  | start | expire => cases hbroken
  | crash call effect =>
    simp only [unbroken, decide_eq_false_iff_not] at hbroken
    push Not at hbroken
    obtain ⟨st, hst, hcreating⟩ := hbroken
    obtain ⟨i, hi⟩ := hsome ((Bool.not_eq_true _).mp hcreating)
    exact ⟨call, st, i, hst, hi, .inl ⟨effect, rfl⟩⟩
  | advance call answer =>
    simp only [unbroken] at hbroken
    split at hbroken
    · rename_i i c factKey now hst
      exact ⟨call, _, i, hst, rfl, .inr (.inr ⟨c, factKey, now, rfl, rfl,
        of_decide_eq_false hbroken⟩)⟩
    · cases hbroken
    · rename_i hst _ hgoes
      obtain ⟨i, hi⟩ := hsome hbroken
      refine ⟨call, _, i, hst, hi, .inr (.inl ⟨_, rfl, ?_⟩)⟩
      intro now hnow
      exact hgoes now hnow
    · cases hbroken

theorem cut_off {answer : Answer} (hi : st.creating = some i) (hanswer : ∀ now, answer ≠ .goes now)
    (hadv : st.advance v s answer = some (s', st')) : st'.creating = none ∧ s'.mutations = s.mutations := by
  cases answer with
  | goes now => exact absurd rfl (hanswer now)
  | fails effect errorCode =>
    cases st with
    | requesting | loading | deciding => cases hadv
    | _ => cases hi
  | raises effect =>
    cases st with
    | requesting | loading | deciding =>
      cases hadv
      exact ⟨rfl, CallState.effect_mutations _ _ _⟩
    | _ => cases hi

theorem stuck_of_broken (hs : Sound v sys) (h : System.step v sys a = some sys')
    (hbroken : unbroken sys a = false) : ∃ i, Stuck sys' i := by
  obtain ⟨call, st, i, hst, hi, hcases⟩ := broken_cases hbroken
  refine ⟨i, ?_⟩
  rcases hcases with ⟨effect, rfl⟩ | ⟨answer, rfl, hanswer⟩ | ⟨c, factKey, now, rfl, rfl, hversion⟩
  · simp only [System.step, hst] at h
    cases st with
    | requesting | loading | deciding =>
      cases h
      exact stuck_of_dropped hs hst hi rfl (CallState.effect_mutations _ _ _)
    | _ => cases hi
  · have hmove : (st.advance v sys.store answer).map
        (fun moved => sys.moved v call st moved.2 answer moved.1) = some sys' := by
      simp only [System.step, hst, Option.bind_some] at h
      cases st with
      | requesting | loading | deciding => exact h
      | _ => cases hi
    obtain ⟨⟨s', st'⟩, hadv, rfl⟩ := Option.map_eq_some_iff.mp hmove
    obtain ⟨hst', hsame⟩ := cut_off hi hanswer hadv
    exact stuck_of_dropped hs hst hi hst' hsame
  · have hload : (sys.store.loadFact factKey).map FactSnapshot.version
        = (sys.store.facts.find factKey).map Fact.version := by
      rw [Store.loadFact, Option.map_map]
      rfl
    have heval : CallState.step v sys.store now (.loading i c factKey)
        = some (sys.store, .releasing factKey (.error (.versionConflict
          (((sys.store.loadFact factKey).map FactSnapshot.factKey).getD factKey) c.expectedVersion
          ((sys.store.loadFact factKey).map FactSnapshot.version)))) := by
      have hne : c.expectedVersion ≠ (sys.store.loadFact factKey).map FactSnapshot.version := by
        rw [hload]
        exact hversion
      simp only [CallState.step, evaluateMutation]
      rw [if_pos hne]
    rw [step_goes hst rfl heval] at h
    cases h
    exact stuck_of_dropped hs hst rfl rfl rfl

/-- **Which mutations can be replayed.**  In a run no step of which is broken, every mutation whose
first call is past its decision, or over, is replayable: the same key and payload, on a free lock,
answer with the result its row has.  A broken step leaves a mutation of which, ever after, a replay
raises a `ValueError` and a resume complains about the missing decision. -/
theorem replayable_of_unbroken {v : MutationService} {acts : List Action} {sys : System}
    (h : exec (System.step v) initial acts = some sys) :
    (Meets (System.step v) (fun s a => unbroken s a = true) initial acts → Replayable v sys) ∧
      ∀ a sys', System.step v sys a = some sys' → unbroken sys a = false →
        ∃ i, ∀ later sys'', exec (System.step v) sys' later = some sys'' →
          ∃ row, sys''.store.mutations.find i = some row ∧
            ∀ call, sys''.calls call = none → sys''.locks row.factKey = none →
              Answers v sys'' call (.mutate row.command) (.error .valueError) ∧
              Answers v sys'' call (.resumeMutation i) (.error incomplete) := by
  have hs := sound_of_exec h
  have hkeyed := keyed_of_exec h
  refine ⟨fun hok i row hrow hfree call c hcall hlock hkey hpayload => ?_,
    fun a sys' hstep hbroken => ?_⟩
  · obtain rfl := MutationCommand.ext_payload hkey hpayload
    have hanswers := replay_answers hs hkeyed hrow hcall hlock
    cases hdecision : row.decision with
    | none =>
      obtain ⟨c, st, hst, hi⟩ := held_of_exec h hok i row hrow hdecision
      exact absurd hi (hfree c st hst)
    | some x =>
      have hresult : ∃ result, row.result = .ok result := by
        unfold Mutation.result
        rw [hdecision]
        exact ⟨_, rfl⟩
      obtain ⟨result, hresult⟩ := hresult
      rw [hresult] at hanswers
      exact ⟨result, hresult, hanswers⟩
  · obtain ⟨i, hstuck⟩ := stuck_of_broken hs hstep hbroken
    refine ⟨i, fun later sys'' hlater => ?_⟩
    have hlate : Sound v sys'' ∧ Keyed sys'' ∧ Stuck sys'' i :=
      exec_preserves (I := fun s => Sound v s ∧ Keyed s ∧ Stuck s i)
        (fun _ _ _ hs hstep => ⟨hs.1.step hstep, hs.2.1.step hstep, hs.2.2.step hs.1 hstep⟩) hlater
        ⟨hs.step hstep, hkeyed.step hstep, hstuck⟩
    obtain ⟨hs', hkeyed', row, hrow, hnone, -⟩ := hlate
    refine ⟨row, hrow, fun call hcall hlock => ⟨?_, resume_answers hs' hrow hnone hcall hlock⟩⟩
    have hanswers := replay_answers hs' hkeyed' hrow hcall hlock
    have hresult : row.result = .error .valueError := by
      unfold Mutation.result
      rw [hnone]
    rw [hresult] at hanswers
    exact hanswers

/-- A mutation that goes through, sent again. -/
theorem replayable_of_unbroken_created : ∃ sys,
    exec (System.step exampleService) initial
      (.start 0 (.mutate (exampleCommand "K-1" "open" none)) :: goes 0 17) = some sys ∧
    Replayable exampleService sys := by
  have hmeets : Meets (System.step exampleService) (fun s a => unbroken s a = true) initial
      (.start 0 (.mutate (exampleCommand "K-1" "open" none)) :: goes 0 17) := by decide +kernel
  have hrun : (exec (System.step exampleService) initial
      (.start 0 (.mutate (exampleCommand "K-1" "open" none)) :: goes 0 17)).isSome = true := by
    decide +kernel
  obtain ⟨sys, hsys⟩ := Option.isSome_iff_exists.mp hrun
  exact ⟨sys, hsys, (replayable_of_unbroken hsys).1 hmeets⟩

/-- What a call that is over has raised. -/
def raised (sys : System) (call : ℕ) : Option MemoryError :=
  match sys.calls call with
  | some (.done (.error e)) => some e
  | _ => none

/-- A second command expects that there is no fact yet, and is sent again; then its mutation is
resumed. -/
def conflictRun : List Action :=
  [.start 0 (.mutate (exampleCommand "K-1" "open" none))] ++ goes 0 17 ++
    [.start 1 (.mutate (exampleCommand "K-2" "closed" none))] ++ goes 1 5 ++
    [.start 2 (.mutate (exampleCommand "K-2" "closed" none))] ++ goes 2 4 ++
    [.start 3 (.resumeMutation 1)] ++ goes 3 4

/-- The first call reports the version conflict; the replay and the resume do not. -/
theorem conflict_not_replayable :
    ((exec (System.step exampleService) initial conflictRun).map fun sys =>
      (sys.raised 1, sys.raised 2, sys.raised 3)) =
    some (some (.versionConflict "R-1" none (some 1)), some .valueError, some incomplete) := by
  decide +kernel

end System

end CountyFlow.Memory
