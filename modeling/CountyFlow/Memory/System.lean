import CountyFlow.Lib.Runs
import CountyFlow.Memory.Service

/-!
# Any number of memory mutations

Calls of `mutate` and `resume_mutation` share one `Store` and one lock per fact.  A lock can expire
while its call goes on, and a call can be cut off or die between any two steps.
-/

namespace CountyFlow.Memory

open CountyFlow.Lib Function

/-! ### What a step does to the store -/

/-- What a step writes into the row of its mutation, where that is all it does. -/
def Phase.mark : Phase → Option (Mutation → Mutation)
  | .applying => some fun row => { row with status := .applying }
  | .settling p status => some fun row => row.setProjection p.slot.target status
  | .recording p _ => some fun row => row.setProjection p.slot.target .active
  | .failing errorCode => some fun row =>
    { row with
      status := .partly
      errorCode := some errorCode
      errorSummary := some "A required memory projection is incomplete" }
  | _ => none

def Work.version (w : Work) : Option Fact → ℕ
  | none => if w.afterVersion = 0 then 1 else w.afterVersion
  | some fact => fact.version + 1

/-- The fact a call writes at some time. -/
def Work.fact (w : Work) (current : Option Fact) (now : ℤ) : Fact :=
  .ofCommand w.command w.factKey (w.version current) .active w.mutationId now

/-- The fact already is what the call would make of it. -/
def Work.Finalized (w : Work) (fact : Fact) : Prop :=
  fact.lastMutationId = w.mutationId ∧ fact.version = w.afterVersion

/-- **What a step of a call does to the store.** -/
inductive CallState.Effect (s : Store) : CallState → Store → Prop
  | nothing {st : CallState} : Effect s st s
  | begun {c : MutationCommand} {factKey : String} {mutations : Table Mutation Mutation.mutationId} :
      (∀ row ∈ s.mutations.rows, row.command.idempotencyKey ≠ c.idempotencyKey) →
      s.mutations.add (.requested c factKey s.nextId) = some mutations →
      Effect s (.beginning c factKey) { s with mutations := mutations, nextId := s.nextId + 1 }
  | decided {mutationId : ℕ} {c : MutationCommand} {factKey : String} {d : MemoryDecision}
      {current : Option FactSnapshot} {row : Mutation} : s.mutations.find mutationId = some row →
      Effect s (.deciding mutationId c factKey d current)
        { s with mutations := s.mutations.replace (row.decided d) }
  | noted {mutationId : ℕ} {c : MutationCommand} {factKey : String} {d : MemoryDecision}
      {current : Option FactSnapshot} :
      Effect s (.evidencing mutationId c factKey d current) (s.appendEvidence mutationId c)
  | reviewed {mutationId : ℕ} {c : MutationCommand} {factKey : String} (now : ℤ) :
      s.facts.find factKey = none →
      Effect s (.reviewing mutationId c factKey)
        { s with
          facts := s.facts.upsert (.ofCommand c factKey 1 .pendingReview mutationId now)
          evidence := Store.linkEvidence s.evidence mutationId factKey }
  | marked {w : Work} {specs : List Projection} {error : Option String} {phase : Phase}
      {f : Mutation → Mutation} {row : Mutation} : phase.mark = some f →
      s.mutations.find w.mutationId = some row →
      Effect s (.working w specs error phase) { s with mutations := s.mutations.replace (f row) }
  | refinalized {w : Work} {specs : List Projection} {error : Option String} {row : Mutation}
      {fact : Fact} : s.mutations.find w.mutationId = some row →
      s.facts.find w.factKey = some fact → w.Finalized fact →
      Effect s (.working w specs error .finalizing)
        { s with mutations := s.mutations.replace { row with status := .finalizing } }
  | wrote {w : Work} {specs : List Projection} {error : Option String} {row : Mutation} (now : ℤ) :
      s.mutations.find w.mutationId = some row →
      (∀ fact ∈ s.facts.find w.factKey, ¬ w.Finalized fact) →
      (s.facts.find w.factKey).map Fact.version = w.beforeVersion →
      Effect s (.working w specs error .finalizing)
        (s.writeFact row (w.fact (s.facts.find w.factKey) now))
  | applied {w : Work} {specs : List Projection} {error : Option String} {row : Mutation}
      {fact : Fact} : s.mutations.find w.mutationId = some row →
      (∀ target, row.projectionStatus target = .notRequired ∨
        row.projectionStatus target = .active) →
      s.facts.find row.factKey = some fact → row.afterVersion = some fact.version →
      Effect s (.working w specs error .closing)
        { s with
          mutations := s.mutations.replace
            { row with status := .applied, errorCode := none, errorSummary := none } }
  | projected {w : Work} {specs : List Projection} {error : Option String} {phase : Phase} :
      Effect s (.working w specs error phase) (phase.effect s)

variable {s s' : Store} {st' st : CallState} {factKey : String} {next : Mutation → CallState}
  {f : Mutation → Mutation} {w : Work} {specs : List Projection} {error : Option String} {phase : Phase}
  {now : ℤ} {v : MutationService}

namespace CallState

theorem committed_setMutation {mutationId : ℕ}
    (h : committed factKey next s (s.setMutation mutationId f) = (s', st')) :
    (∃ row, s.mutations.find mutationId = some row ∧ st' = next (f row) ∧
        s' = { s with mutations := s.mutations.replace (f row) }) ∨
      (s' = s ∧ st' = .releasing factKey (.error (.unknownMutation mutationId)) ∧
        s.mutations.find mutationId = none) := by
  unfold Store.setMutation at h
  cases hfind : s.mutations.find mutationId with
  | some row =>
    simp only [hfind, committed, Prod.mk.injEq] at h
    exact .inl ⟨row, rfl, h.2.symm, h.1.symm⟩
  | none =>
    simp only [hfind, committed, Prod.mk.injEq] at h
    exact .inr ⟨h.1.symm, h.2.symm, rfl⟩

theorem effect_of_mark (hmark : phase.mark = some f)
    (h : committed w.factKey next s (s.setMutation w.mutationId f) = (s', st')) :
    Effect s (.working w specs error phase) s' := by
  obtain ⟨row, hfind, -, rfl⟩ | ⟨rfl, -⟩ := committed_setMutation h
  · exact .marked hmark hfind
  · exact .nothing

theorem markApplied_cases (s : Store) (mutationId : ℕ) :
    (∃ row fact, s.mutations.find mutationId = some row ∧
        (∀ target, row.projectionStatus target = .notRequired ∨
          row.projectionStatus target = .active) ∧
        s.facts.find row.factKey = some fact ∧ row.afterVersion = some fact.version ∧
        s.markApplied mutationId = .ok
          ({ s with
              mutations := s.mutations.replace
                { row with status := .applied, errorCode := none, errorSummary := none } },
            { row with status := .applied, errorCode := none, errorSummary := none })) ∨
      ∃ e, s.markApplied mutationId = .error e := by
  unfold Store.markApplied
  cases hfind : s.mutations.find mutationId with
  | none => exact .inr ⟨_, rfl⟩
  | some row =>
    simp only
    split
    · exact .inr ⟨_, rfl⟩
    · rename_i hstatus
      split
      · rename_i hfact
        obtain ⟨fact, hfact, hversion⟩ := hfact
        refine .inl ⟨row, fact, rfl, ?_, hfact, hversion.symm, ?_⟩
        · intro target
          rw [not_or, not_not, not_not] at hstatus
          cases target with
          | vector => simpa [Mutation.projectionStatus] using hstatus.1
          | graph => simpa [Mutation.projectionStatus] using hstatus.2
        · simp only [Store.setMutation, hfind]
      · exact .inr ⟨_, rfl⟩

theorem finalizeCanonical_cases (s : Store) (w : Work) (now : ℤ) :
    (∃ row fact, s.mutations.find w.mutationId = some row ∧ s.facts.find w.factKey = some fact ∧
        w.Finalized fact ∧
        s.finalizeCanonical w.mutationId w.command w.factKey w.beforeVersion w.afterVersion now
          = .ok { s with mutations := s.mutations.replace { row with status := .finalizing } }) ∨
      (∃ row, s.mutations.find w.mutationId = some row ∧
        (∀ fact ∈ s.facts.find w.factKey, ¬ w.Finalized fact) ∧
        (s.facts.find w.factKey).map Fact.version = w.beforeVersion ∧
        s.finalizeCanonical w.mutationId w.command w.factKey w.beforeVersion w.afterVersion now
          = .ok (s.writeFact row (w.fact (s.facts.find w.factKey) now))) ∨
      ((∀ row fact, s.mutations.find w.mutationId = some row →
          s.facts.find w.factKey = some fact → ¬ w.Finalized fact) ∧
        ∃ e, s.finalizeCanonical w.mutationId w.command w.factKey w.beforeVersion w.afterVersion
          now = .error e) := by
  unfold Store.finalizeCanonical
  cases hfind : s.mutations.find w.mutationId with
  | none => exact .inr (.inr ⟨fun row fact h => (by cases h), _, rfl⟩)
  | some row =>
    simp only
    split
    · rename_i hdone
      obtain ⟨fact, hfact, hfin⟩ := hdone
      exact .inl ⟨row, fact, rfl, hfact, hfin, rfl⟩
    · rename_i hnot
      have hnone : ∀ fact ∈ s.facts.find w.factKey, ¬ w.Finalized fact :=
        fun fact hfact hfin => hnot ⟨fact, hfact, hfin⟩
      split
      · exact .inr (.inr ⟨fun _ fact _ hfact => hnone fact hfact, _, rfl⟩)
      · rename_i hversion
        refine .inr (.inl ⟨row, rfl, hnone, not_not.mp hversion, ?_⟩)
        cases hfact : s.facts.find w.factKey with
        | none => rfl
        | some fact => rfl

/-- What a phase does to the store is one of the effects. -/
theorem Phase.step_effect
    (h : phase.step s w specs error now = (s', st')) : Effect s (.working w specs error phase) s' := by
  cases phase with
  | applying => exact effect_of_mark rfl h
  | building target =>
    simp only [Phase.step] at h
    split at h <;> (cases h; exact .nothing)
  | probing p =>
    simp only [Phase.step] at h
    split at h <;> (cases h; exact .nothing)
  | staging p =>
    cases h
    exact .projected
  | settling p status => exact effect_of_mark rfl h
  | finalizing =>
    simp only [Phase.step] at h
    obtain ⟨row, fact, hrow, hfact, hfin, heq⟩ | ⟨row, hrow, hnot, hversion, heq⟩ | ⟨-, e, heq⟩ :=
      finalizeCanonical_cases s w now
    · rw [heq] at h
      cases h
      exact .refinalized hrow hfact hfin
    · rw [heq] at h
      cases h
      exact .wrote now hrow hnot hversion
    · rw [heq] at h
      cases h
      exact .nothing
  | checking p rest =>
    simp only [Phase.step] at h
    split at h <;> (cases h; exact .nothing)
  | activating p rest =>
    cases h
    exact .projected
  | retiring p rest =>
    cases h
    exact .projected
  | recording p rest => exact effect_of_mark rfl h
  | failing errorCode => exact effect_of_mark rfl h
  | closing =>
    simp only [Phase.step] at h
    obtain ⟨row, fact, hrow, hstatus, hfact, hversion, heq⟩ | ⟨e, heq⟩ :=
      markApplied_cases s w.mutationId
    · rw [heq] at h
      cases h
      exact .applied hrow hstatus hfact hversion
    · rw [heq] at h
      cases h
      exact .nothing

theorem effect_if (s : Store) (st : CallState) (effect : Bool) :
    Effect s st (if effect then st.effect s else s) := by
  cases effect with
  | false => exact .nothing
  | true =>
    cases st with
    | working w specs error phase => exact .projected
    | _ => exact .nothing

/-- A statement of a call has one of these effects on the store. -/
theorem step_effect (h : st.step v s now = some (s', st')) : Effect s st s' := by
  cases st with
  | beginning c factKey =>
    simp only [step, Store.beginOrReplay, Option.some.injEq] at h
    split at h
    all_goals rename_i heq
    all_goals split at heq
    · split at heq <;> cases heq
      cases h
      exact .nothing
    · split at heq <;> cases heq
    · split at heq <;> cases heq
    · rename_i hnone
      split at heq
      · rename_i mutations hadd
        cases heq
        cases h
        exact .begun (fun row hrow => by simpa using List.find?_eq_none.mp hnone row hrow) hadd
      · cases heq
    · split at heq <;> cases heq
      cases h
      exact .nothing
    · split at heq <;> cases heq
      cases h
      exact .nothing
  | deciding mutationId c factKey d current =>
    simp only [step, Option.some.injEq, Store.recordDecision] at h
    obtain ⟨row, hfind, -, rfl⟩ | ⟨rfl, -⟩ := committed_setMutation h
    · exact .decided hfind
    · exact .nothing
  | evidencing mutationId c factKey d current =>
    cases h
    exact .noted
  | reviewing mutationId c factKey =>
    simp only [step, Option.some.injEq, Store.createPendingReview] at h
    split at h
    · cases h
      exact .nothing
    · rename_i hnone
      cases h
      exact .reviewed now (Option.not_isSome_iff_eq_none.mp hnone)
  | reading mutationId =>
    simp only [step, Option.some.injEq] at h
    split at h
    · split at h <;> (cases h; exact .nothing)
    · cases h
      exact .nothing
  | loading mutationId c factKey =>
    simp only [step, Option.some.injEq] at h
    split at h <;> (cases h; exact .nothing)
  | working w specs error phase =>
    simp only [step, Option.some.injEq] at h
    exact Phase.step_effect h
  | replaying | requesting | concluding | resuming | reporting =>
    cases h
    exact .nothing
  | acquiring | waiting | releasing | done => cases h

theorem advance_effect {a : Answer} (h : st.advance v s a = some (s', st')) : Effect s st s' := by
  cases a with
  | goes now => exact step_effect h
  | fails effect errorCode =>
    cases st with
    | working w specs error phase =>
      have heffect := effect_if s (.working w specs error phase) effect
      cases phase with
      | staging | activating | retiring =>
        cases h
        exact heffect
      | _ => cases h
    | _ => cases h
  | raises effect =>
    have heffect := effect_if s st effect
    cases st with
    | done => cases h
    | releasing =>
      cases h
      exact .nothing
    | _ =>
      cases h
      exact heffect

end CallState

/-! ### The system -/

structure DecisionRecord where
  mutationId : ℕ
  now : ℤ
  current : Option FactSnapshot
  decision : MemoryDecision

/-- A finalization: the versions it moved its fact between, and the fact it left. -/
structure Finalization where
  mutationId : ℕ
  factKey : String
  before : Option ℕ
  fact : Fact
  deriving DecidableEq

/-- What an observer has written down. -/
structure History where
  decisions : List DecisionRecord
  finalizations : List Finalization

/-- What is written down about a step that goes through. -/
def History.observe (h : History) (v : MutationService) (s s' : Store) (now : ℤ) :
    CallState → History
  | .loading mutationId c factKey =>
    match evaluateMutation (s.loadFact factKey) factKey c v.policySettings now with
    | .ok d => { h with
        decisions := h.decisions ++ [⟨mutationId, now, s.loadFact factKey, d⟩] }
    | .error _ => h
  | .working w _ _ .finalizing =>
    match s'.facts.find w.factKey with
    | some fact =>
      if s.facts.find w.factKey = some fact then h
      else { h with
        finalizations := h.finalizations ++
          [⟨w.mutationId, w.factKey, (s.facts.find w.factKey).map Fact.version, fact⟩] }
    | none => h
  | _ => h

/-- Only a step that goes through is written down. -/
def History.record (h : History) (v : MutationService) (s s' : Store) (st : CallState) :
    Answer → History
  | .goes now => h.observe v s s' now st
  | .fails .. | .raises _ => h

def CallState.locking : CallState → Bool
  | .acquiring .. | .waiting _ | .releasing .. => true
  | _ => false

inductive Request where
  | mutate (c : MutationCommand)
  | resumeMutation (mutationId : ℕ)

inductive Action where
  | start (call : ℕ) (request : Request)
  | advance (call : ℕ) (answer : Answer)
  | crash (call : ℕ) (effect : Bool)
  /-- The lock of a fact expires. -/
  | expire (factKey : String)

/-- The call an action is a step of. -/
def Action.call : Action → Option ℕ
  | .start call _ | .advance call _ | .crash call _ => some call
  | .expire _ => none

structure System where
  store : Store
  locks : String → Option ℕ
  calls : ℕ → Option CallState
  history : History

namespace System

def initial : System := ⟨Store.empty, fun _ => none, fun _ => none, ⟨[], []⟩⟩

/-- How a call starts: `mutate` checks its command before it asks for the lock. -/
def startState (v : MutationService) : Request → CallState
  | .mutate c =>
    if c.category ≠ .dispatch then
      .done (.error (.validation "V2-B accepts DispatchMemory only"))
    else if c.targets ≠ MutationCommand.allowedTargets c.factKind then
      .done (.error (.validation "Memory targets do not match the fact-kind registry"))
    else .acquiring c (v.factKey c)
  | .resumeMutation mutationId => .reading mutationId

/-- `acquire`: the lock, or `MemoryMutationBusy`. -/
def acquire (sys : System) (call : ℕ) (factKey : String) (next : CallState) : System :=
  if sys.locks factKey = none then
    { sys with
      locks := update sys.locks factKey (some call)
      calls := update sys.calls call (some next) }
  else { sys with calls := update sys.calls call (some (.done (.error (.busy factKey)))) }

/-- `release`: only the lock that is still the call's own. -/
def release (sys : System) (call : ℕ) (factKey : String)
    (ending : Except MemoryError MutationResult) : System :=
  { sys with
    locks :=
      if sys.locks factKey = some call then update sys.locks factKey none else sys.locks
    calls := update sys.calls call (some (.done ending)) }

def moved (sys : System) (v : MutationService) (call : ℕ) (st st' : CallState) (answer : Answer)
    (s' : Store) : System :=
  { sys with
    store := s'
    calls := update sys.calls call (some st')
    history := sys.history.record v sys.store s' st answer }

/-- The state after an action, `none` when it is not enabled. -/
def step (v : MutationService) (sys : System) : Action → Option System
  | .start call request =>
    match sys.calls call with
    | none => some { sys with
        calls := update sys.calls call (some (startState v request)) }
    | some _ => none
  | .advance call answer =>
    (sys.calls call).bind fun st =>
      match st, answer with
      | .acquiring c factKey, .goes _ => some (sys.acquire call factKey (.beginning c factKey))
      | .waiting stored, .goes _ => some (sys.acquire call stored.factKey (.resuming stored))
      | .releasing factKey ending, .goes _ => some (sys.release call factKey ending)
      | _, _ =>
        (st.advance v sys.store answer).map fun (s', st') => sys.moved v call st st' answer s'
  | .crash call effect =>
    match sys.calls call with
    | some (.done _) | none => none
    | some st => some { sys with
        store := if effect then st.effect sys.store else sys.store
        calls := update sys.calls call (some (.done (.error .crashed))) }
  | .expire factKey => some { sys with locks := update sys.locks factKey none }

/-- The moves that touch neither the store nor the history: a call starts, gets its lock or ends. -/
inductive Quiet (v : MutationService) : Option CallState → CallState → Prop
  | starts (request : Request) : Quiet v none (startState v request)
  | acquires (c : MutationCommand) (factKey : String) :
      Quiet v (some (.acquiring c factKey)) (.beginning c factKey)
  | resumes (stored : Mutation) : Quiet v (some (.waiting stored)) (.resuming stored)
  | ends {st : CallState} (ending : Except MemoryError MutationResult) : st.locking = true →
      Quiet v (some st) (.done ending)

/-- It is the call that moves, and a resume goes on when the lock is free. -/
def Granted (sys : System) (a : Action) (call : ℕ) (st' : CallState) : Prop :=
  a.call = some call ∧ ∀ stored, st' = .resuming stored →
    (∃ now, a = .advance call (.goes now)) ∧ sys.calls call = some (.waiting stored) ∧
      sys.locks stored.factKey = none

/-- **What an action does**: a quiet move, a step of a call, a crash, or only the locks change. -/
inductive Moves (v : MutationService) (sys : System) : Action → System → Prop
  | quiet {a : Action} {call : ℕ} {st' : CallState} {locks : String → Option ℕ} :
      Quiet v (sys.calls call) st' → Granted sys a call st' →
      Moves v sys a { sys with
        locks := locks
        calls := update sys.calls call (some st') }
  | advances {call : ℕ} {answer : Answer} {st st' : CallState} {s' : Store} :
      sys.calls call = some st → st.advance v sys.store answer = some (s', st') →
      Moves v sys (.advance call answer) (sys.moved v call st st' answer s')
  | crashes {call : ℕ} {effect : Bool} {st : CallState} : sys.calls call = some st →
      Moves v sys (.crash call effect) { sys with
        store := if effect then st.effect sys.store else sys.store
        calls := update sys.calls call (some (.done (.error .crashed))) }
  | expires {factKey : String} :
      Moves v sys (.expire factKey) { sys with locks := update sys.locks factKey none }

theorem acquire_moves {sys : System} {a : Action} {call : ℕ} {next : CallState}
    (hst : sys.calls call = some st) (hlock : st.locking = true) (hcall : a.call = some call)
    (hnext : Quiet v (some st) next) (hgrant : sys.locks factKey = none → Granted sys a call next) :
    Moves v sys a (sys.acquire call factKey next) := by
  rw [← hst] at hnext
  unfold acquire
  split
  · rename_i hfree
    exact .quiet hnext (hgrant hfree)
  · have hends : Quiet v (sys.calls call) (.done (.error (.busy factKey))) := by
      rw [hst]
      exact .ends _ hlock
    exact .quiet hends ⟨hcall, fun stored hstored => (by cases hstored)⟩

/-- All that an action on the memory can do. -/
theorem step_moves {sys sys' : System} {a : Action} (h : step v sys a = some sys') : Moves v sys a sys' := by
  cases a with
  | start call request =>
    simp only [step] at h
    split at h
    · rename_i hnone
      cases h
      have hstarts : Quiet v (sys.calls call) (startState v request) := by
        rw [hnone]
        exact .starts request
      refine .quiet hstarts ⟨rfl, fun stored hstored => ?_⟩
      cases request with
      | resumeMutation mutationId => cases hstored
      | mutate c =>
        simp only [startState] at hstored
        split at hstored
        · cases hstored
        · split at hstored <;> cases hstored
    · cases h
  | advance call answer =>
    simp only [step] at h
    obtain ⟨st, hst, h⟩ := Option.bind_eq_some_iff.mp h
    split at h
    · cases h
      exact acquire_moves hst rfl rfl (.acquires _ _) fun _ =>
        ⟨rfl, fun stored hstored => (by cases hstored)⟩
    · cases h
      refine acquire_moves hst rfl rfl (.resumes _) fun hfree => ⟨rfl, fun stored hstored => ?_⟩
      cases hstored
      exact ⟨⟨_, rfl⟩, hst, hfree⟩
    · cases h
      exact .quiet (by rw [hst]; exact .ends _ rfl)
        ⟨rfl, fun stored hstored => (by cases hstored)⟩
    · obtain ⟨⟨s', st'⟩, hadv, hsys⟩ := Option.map_eq_some_iff.mp h
      rw [← hsys]
      exact .advances hst hadv
  | crash call effect =>
    simp only [step] at h
    split at h
    · cases h
    · cases h
    · rename_i st _ hst
      cases h
      exact .crashes hst
  | expire factKey =>
    cases h
    exact .expires

end System

end CountyFlow.Memory
