import CountyFlow.Lib.Runs
import CountyFlow.Submission.Ledger

/-!
# Any number of calls of `begin`

The calls of the API and of the workers share the tables; their statements interleave, they raise and
crash anywhere, and the status of a task, its thread and the events of the thread change meanwhile.
-/

namespace CountyFlow.Submission

open CountyFlow.Lib CountyFlow.Runtime CountyFlow.Worker Function

structure System where
  ledger : Ledger
  calls : ℕ → BeginState

inductive Action where
  | begin (p : ℕ) (a : BeginArgs)
  | advance (p : ℕ) (o : BeginOutcome)
  | crash (p : ℕ)
  | setStatus (taskId : String) (status : TaskStatus) (started completed : Bool) (now : ℕ)
  | steer (row : RuntimeThread)
  | note (row : EventRow)
  deriving DecidableEq, Repr

namespace BeginState

def running : BeginState → Bool
  | .idle | .returned _ _ | .raised _ _ => false
  | _ => true

/-- A session that is closed without a commit. -/
def closed (st : BeginState) : BeginState :=
  match st.args with
  | none => .idle
  | some a => .raised a .databaseError

end BeginState

variable {s s' : System} {l : Ledger} {p : ℕ} {a : BeginArgs} {threadId : String}

namespace System

/-- The state after an action, `none` when it is not enabled. -/
def step (s : System) : Action → Option System
  | .begin p a =>
    match s.calls p with
    | .idle => some { s with calls := update s.calls p (.byTask a false) }
    | _ => none
  | .advance p o =>
    (BeginState.step o s.ledger (s.calls p)).map fun (st, ledger) =>
      { ledger := ledger, calls := update s.calls p st }
  | .crash p =>
    if (s.calls p).running then
      some { s with calls := update s.calls p (s.calls p).closed }
    else none
  | .setStatus taskId status started completed now =>
    (s.ledger.setStatus taskId status started completed now).map fun ledger =>
      { s with ledger := ledger }
  | .steer row => (s.ledger.steer row).map fun ledger => { s with ledger := ledger }
  | .note row => (s.ledger.insertEvent row).map fun ledger => { s with ledger := ledger }

/-- Where runs begin: no call, and tables that are whole. -/
structure Initial (s : System) : Prop where
  idle : ∀ p, s.calls p = .idle
  whole : s.ledger.Whole

/-- The tables are whole, the creator of a task finds it there, and a key has one creator at most. -/
structure Ordered (s : System) : Prop where
  whole : s.ledger.Whole
  stored : ∀ p a, (s.calls p).isNew = true → (s.calls p).args = some a →
    (a.taskId, a.idempotencyKey) ∈ s.ledger.pairs
  alone : ∀ p q a b, (s.calls p).isNew = true → (s.calls p).args = some a →
    (s.calls q).isNew = true → (s.calls q).args = some b → a.idempotencyKey = b.idempotencyKey → p = q

theorem Initial.ordered (h : s.Initial) : s.Ordered := by
  refine ⟨h.whole, fun p a hnew => ?_, fun p q a b hnew => ?_⟩
  · rw [h.idle p] at hnew
    cases hnew
  · rw [h.idle p] at hnew
    cases hnew

theorem Ordered.ledger (hs : s.Ordered) (hwhole : l.Whole)
    (hpairs : l.pairs = s.ledger.pairs) : ({ s with ledger := l } : System).Ordered := by
  refine ⟨hwhole, fun p a hnew hargs => ?_, hs.alone⟩
  show _ ∈ l.pairs
  rw [hpairs]
  exact hs.stored p a hnew hargs

theorem Ordered.call {st : BeginState} (hs : s.Ordered) (hst : st.isNew = false) :
    ({ s with calls := update s.calls p st } : System).Ordered := by
  have hother : ∀ q a, (update s.calls p st q).isNew = true →
      (update s.calls p st q).args = some a →
      (s.calls q).isNew = true ∧ (s.calls q).args = some a := by
    intro q a hnew hargs
    by_cases hq : q = p
    · subst hq
      rw [update_self, hst] at hnew
      cases hnew
    · rw [update_of_ne hq] at hnew hargs
      exact ⟨hnew, hargs⟩
  refine ⟨hs.whole, fun q a hnew hargs => ?_, fun q q' a b hnew hargs hnew' hargs' hkey => ?_⟩
  · obtain ⟨hbefore, hbeforeArgs⟩ := hother q a hnew hargs
    exact hs.stored q a hbefore hbeforeArgs
  · obtain ⟨hbefore, hbeforeArgs⟩ := hother q a hnew hargs
    obtain ⟨hbefore', hbeforeArgs'⟩ := hother q' b hnew' hargs'
    exact hs.alone q q' a b hbefore hbeforeArgs hbefore' hbeforeArgs' hkey

theorem Ordered.commit (hs : s.Ordered) (h : Ledger.Gains s.ledger l a threadId) :
    ({ ledger := l, calls := update s.calls p (.returned a a.new) } : System).Ordered := by
  have hfree : ∀ q b, (s.calls q).isNew = true → (s.calls q).args = some b →
      b.idempotencyKey ≠ a.idempotencyKey := by
    intro q b hnew hargs hkey
    obtain ⟨row, hrow, hpair⟩ := List.mem_map.mp (hs.stored q b hnew hargs)
    exact Ledger.byKey_eq_none.mp h.freeKey row hrow ((Prod.mk.inj hpair).2.trans hkey)
  have hcases : ∀ q b, (update s.calls p (.returned a a.new) q).isNew = true →
      (update s.calls p (.returned a a.new) q).args = some b →
      (q = p ∧ b = a) ∨ (q ≠ p ∧ (s.calls q).isNew = true ∧ (s.calls q).args = some b) := by
    intro q b hnew hargs
    by_cases hq : q = p
    · subst hq
      rw [update_self] at hargs
      exact .inl ⟨rfl, (Option.some.inj hargs).symm⟩
    · rw [update_of_ne hq] at hnew hargs
      exact .inr ⟨hq, hnew, hargs⟩
  refine ⟨h.whole hs.whole, fun q b hnew hargs => ?_, fun q q' b b' hnew hargs hnew' hargs' hkey => ?_⟩
  · show _ ∈ l.pairs
    rw [h.pairs]
    rcases hcases q b hnew hargs with ⟨-, rfl⟩ | ⟨-, hbefore, hbeforeArgs⟩
    · exact List.mem_append_right _ (List.mem_singleton.mpr rfl)
    · exact List.mem_append_left _ (hs.stored q b hbefore hbeforeArgs)
  · rcases hcases q b hnew hargs with ⟨hq, hb⟩ | ⟨-, hbefore, hbeforeArgs⟩
    · rcases hcases q' b' hnew' hargs' with ⟨hq', -⟩ | ⟨-, hbefore', hbeforeArgs'⟩
      · exact hq.trans hq'.symm
      · exact absurd (hkey.symm.trans (congrArg _ hb)) (hfree q' b' hbefore' hbeforeArgs')
    · rcases hcases q' b' hnew' hargs' with ⟨-, hb'⟩ | ⟨-, hbefore', hbeforeArgs'⟩
      · exact absurd (hkey.trans (congrArg _ hb')) (hfree q b hbefore hbeforeArgs)
      · exact hs.alone q q' b b' hbefore hbeforeArgs hbefore' hbeforeArgs' hkey

/-! ### One step -/

/-- The tables keep the pairs of ids and keys. -/
def Keeps (s s' : System) : Prop := ∀ pair ∈ s.ledger.pairs, pair ∈ s'.ledger.pairs

/-- The tables stay whole, and what is there stays there. -/
theorem step_ordered {a : Action} (hs : s.Ordered) (h : step s a = some s') : s'.Ordered ∧ s.Keeps s' := by
  cases a with
  | begin p args =>
    simp only [step] at h
    split at h
    · cases h
      exact ⟨hs.call rfl, fun pair hpair => hpair⟩
    · cases h
  | advance p o =>
    obtain ⟨⟨st, l⟩, hstep, rfl⟩ := Option.map_eq_some_iff.mp h
    obtain ⟨-, ⟨rfl, hnot⟩ | ⟨args, threadId, -, rfl, hcommit⟩⟩ := BeginState.step_moves hstep
    · exact ⟨hs.call hnot, fun pair hpair => hpair⟩
    · have hgains := Ledger.commit_gains hcommit
      refine ⟨hs.commit hgains, fun pair hpair => ?_⟩
      show pair ∈ l.pairs
      rw [hgains.pairs]
      exact List.mem_append_left _ hpair
  | crash p =>
    simp only [step] at h
    split at h
    · cases h
      refine ⟨hs.call ?_, fun pair hpair => hpair⟩
      unfold BeginState.closed
      split <;> rfl
    · cases h
  | setStatus t status started completed now =>
    obtain ⟨l, hset, rfl⟩ := Option.map_eq_some_iff.mp h
    obtain ⟨row, -, rfl⟩ := Option.map_eq_some_iff.mp hset
    refine ⟨hs.ledger (Ledger.update_whole _ _ _ _ hs.whole) (Ledger.update_pairs ..), ?_⟩
    intro pair hpair
    show pair ∈ Ledger.pairs _
    rw [Ledger.update_pairs]
    exact hpair
  | steer row =>
    obtain ⟨l, hsteer, rfl⟩ := Option.map_eq_some_iff.mp h
    obtain ⟨hwhole, hpairs⟩ := Ledger.steer_whole hsteer hs.whole
    refine ⟨hs.ledger hwhole hpairs, fun pair hpair => ?_⟩
    show pair ∈ l.pairs
    rw [hpairs]
    exact hpair
  | note row =>
    obtain ⟨l, hnote, rfl⟩ := Option.map_eq_some_iff.mp h
    obtain ⟨hwhole, hpairs⟩ := Ledger.insertEvent_whole hnote hs.whole
    refine ⟨hs.ledger hwhole hpairs, fun pair hpair => ?_⟩
    show pair ∈ l.pairs
    rw [hpairs]
    exact hpair

theorem gains_ne {l' : Ledger} (h : Ledger.Gains l l' a threadId) : l' ≠ l := by
  rintro rfl
  have hlength := congrArg List.length h.tasks
  rw [List.length_append, List.length_singleton] at hlength
  omega

theorem advance_creates {o : BeginOutcome} (h : step s (.advance p o) = some s') :
    ((s'.calls p).isNew = true ↔ ∃ a threadId, (s.calls p).args = some a ∧
      Ledger.Gains s.ledger s'.ledger a threadId ∧ (a.thread threadId).stateVersion = 0 ∧
      (a.thread threadId).nextNode = some "intake") ∧
    ((s'.calls p).isNew = false → s'.ledger = s.ledger) := by
  obtain ⟨⟨st, l⟩, hstep, rfl⟩ := Option.map_eq_some_iff.mp h
  dsimp only
  rw [update_self]
  obtain ⟨-, ⟨rfl, hnot⟩ | ⟨args, threadId, hst, rfl, hcommit⟩⟩ := BeginState.step_moves hstep
  · refine ⟨⟨fun hnew => ?_, ?_⟩, fun _ => rfl⟩
    · rw [hnot] at hnew
      cases hnew
    · rintro ⟨a, threadId, -, hgains, -⟩
      exact absurd rfl (gains_ne hgains)
  · refine ⟨⟨fun _ => ⟨args, threadId, ?_, Ledger.commit_gains hcommit, rfl, rfl⟩, fun _ => rfl⟩, ?_⟩
    · rw [hst]
      rfl
    · intro hnot
      cases hnot

/-! ### Whole runs -/

/-- **The ledger is created once and whole.**  In every run: task ids and keys correspond one to one
and go on doing so; of the calls with one key at most one has ever returned `NEW`; a call returns
`NEW` exactly in the step that commits its task, its thread at state version 0 before `intake`, and
the created event of the thread, and no other step of a call changes the tables; and every task has
its thread and its created event. -/
theorem ledger_created_once_and_whole {s₀ s : System} {run : List Action} (h₀ : s₀.Initial)
    (hrun : exec step s₀ run = some s) :
    (∀ t t' k k', (t, k) ∈ s.ledger.pairs → (t', k') ∈ s.ledger.pairs → (t = t' ↔ k = k')) ∧
      (∀ more s', exec step s more = some s' → s.Keeps s') ∧
      (∀ p q a b, (s.calls p).isNew = true → (s.calls p).args = some a →
        (s.calls q).isNew = true → (s.calls q).args = some b →
        a.idempotencyKey = b.idempotencyKey → p = q) ∧
      (∀ p o s', step s (.advance p o) = some s' →
        ((s'.calls p).isNew = true ↔ ∃ a threadId, (s.calls p).args = some a ∧
          Ledger.Gains s.ledger s'.ledger a threadId ∧ (a.thread threadId).stateVersion = 0 ∧
          (a.thread threadId).nextNode = some "intake") ∧
        ((s'.calls p).isNew = false → s'.ledger = s.ledger)) ∧
      (∀ p a s', step s (.begin p a) = some s' ∨ step s (.crash p) = some s' → s'.ledger = s.ledger) ∧
      s.ledger.Whole := by
  have hs : s.Ordered :=
    exec_preserves (fun (s₁ : System) a s₂ hs hstep => (step_ordered hs hstep).1) hrun h₀.ordered
  refine ⟨fun t t' k k' h h' => Ledger.pairs_iff h h', fun more s' hmore => ?_, hs.alone,
    fun p o s' hstep => advance_creates hstep, fun p a s' hstep => ?_, hs.whole⟩
  · exact exec_relation (I := Ordered) (fun _ _ h => h) (fun _ _ _ hab hbc pair h => hbc pair (hab pair h))
      (fun _ _ _ hs _ hstep => (step_ordered hs hstep).1)
      (fun _ _ _ hs _ hstep => (step_ordered hs hstep).2)
      (meets_of_forall (fun _ _ => trivial) s more) hmore hs
  · rcases hstep with hstep | hstep
    · simp only [step] at hstep
      split at hstep
      · cases hstep
        rfl
      · cases hstep
    · simp only [step] at hstep
      split at hstep
      · cases hstep
        rfl
      · cases hstep

def empty : System := ⟨.empty, fun _ => .idle⟩

theorem empty_initial : empty.Initial := ⟨fun _ => rfl, fun _ h => (by cases h)⟩

/-- Two calls with one key and two ids; both have found nothing. -/
def rivals : List Action :=
  [.begin 0 ⟨"TASK-0", 7, "key", none, none⟩, .begin 1 ⟨"TASK-1", 7, "key", none, none⟩] ++
    [0, 0, 1, 1, 0, 1, 0, 0, 1, 1, 1].map fun p => .advance p ⟨.checked, true⟩

/-- One of them creates the task, the other one raises, and the tables are whole. -/
theorem ledger_created_once_and_whole_rivals : ∃ s, exec step empty rivals = some s ∧
    s.ledger.pairs = [("TASK-0", "key")] ∧ (s.calls 0).isNew = true ∧
    (s.calls 1).isNew = false ∧ s.ledger.Whole := by
  have hx : (exec step empty rivals).map (fun s => decide (s.ledger.pairs = [("TASK-0", "key")] ∧
      (s.calls 0).isNew = true ∧ (s.calls 1).isNew = false)) = some true := by
    decide +kernel
  obtain ⟨s, hs, hx⟩ := Option.map_eq_some_iff.mp hx
  obtain ⟨hpairs, hnew, hnot⟩ := of_decide_eq_true hx
  obtain ⟨-, -, -, -, -, hwhole⟩ := ledger_created_once_and_whole empty_initial hs
  exact ⟨s, hs, hpairs, hnew, hnot, hwhole⟩

end System

end CountyFlow.Submission
