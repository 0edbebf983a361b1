import CountyFlow.Memory.Chain

/-!
# Finalizations that overlap

`finalize_canonical`, statement by statement: the mutation and the fact are read, the fact is flushed, its
evidence linked, and the transaction committed.  An `UPDATE` of the fact carries the version that was read
in its `WHERE`, an `INSERT` meets the unique `fact_key`, and a flushed row is locked until its transaction
ends.  A statement reads what has been committed, or what had been at the first one of its transaction.
-/

namespace CountyFlow.Memory.Race

open CountyFlow.Lib Function

/-- What `finalize_canonical` is called with. -/
structure Finalizing where
  mutationId : ℕ
  command : MutationCommand
  factKey : String
  decision : MemoryDecision
  now : ℤ

inductive FinalizeError where
  | unknownMutation (mutationId : ℕ)
  /-- `MemoryVersionConflict`. -/
  | versionConflict (factKey : String) (expected actual : Option ℕ)
  /-- `StaleDataError`: an `UPDATE` has matched no row. -/
  | staleData
  /-- `IntegrityError`: an `INSERT` has met a unique key. -/
  | integrity
  /-- The connection is lost, or the call cut off. -/
  | interrupted
  deriving DecidableEq

/-- Where a call is: before the `SELECT` of the fact, its flush, the `UPDATE` of the evidence and its commit;
`marking` is before the commit of a mutation that has been finalized already. -/
inductive CallState where
  | idle
  | begun (t : Finalizing) (snapshot : Store)
  | marking (t : Finalizing)
  | read (t : Finalizing) (fact : Option Fact)
  | flushed (t : Finalizing) (fact : Option Fact)
  | linked (t : Finalizing) (fact : Option Fact)
  | done (ending : Except FinalizeError Unit)

inductive Action where
  | begin (p : ℕ) (t : Finalizing)
  | select (p : ℕ)
  | flush (p : ℕ)
  | link (p : ℕ)
  | commit (p : ℕ)
  | abort (p : ℕ)

def Action.call : Action → ℕ
  | .begin p _ | .select p | .flush p | .link p | .commit p | .abort p => p

structure System where
  store : Store
  locks : String → Option ℕ
  calls : ℕ → CallState

namespace Finalizing

/-- The fact has been written for this mutation already. -/
def Applied (t : Finalizing) (fact : Option Fact) : Prop :=
  ∃ f ∈ fact, f.lastMutationId = t.mutationId ∧ some f.version = t.decision.afterVersion

instance (t : Finalizing) (fact : Option Fact) : Decidable (t.Applied fact) := by
  unfold Applied
  infer_instance

/-- The row that is written, for the fact that was read. -/
def row (t : Finalizing) : Option Fact → Fact
  | none => .ofCommand t.command t.factKey
      (match t.decision.afterVersion with
        | some (version + 1) => version + 1
        | some 0 | none => 1) t.decision.proposedStatus t.mutationId t.now
  | some f => .ofCommand t.command t.factKey (f.version + 1) t.decision.proposedStatus t.mutationId t.now

def committed (t : Finalizing) (s : Store) (fact : Option Fact) : Store :=
  match s.mutations.find t.mutationId with
  | none => s
  | some mutation => s.writeFact mutation (t.row fact)

/-- What the commit of a mutation leaves that has been finalized already. -/
def marked (t : Finalizing) (s : Store) : Store :=
  match s.mutations.find t.mutationId with
  | none => s
  | some mutation => { s with mutations := s.mutations.replace { mutation with status := .finalizing } }

/-- The flush of the fact that was read, on what has been committed. -/
def flush (t : Finalizing) (s : Store) (fact : Option Fact) : Except FinalizeError Unit :=
  match fact, s.facts.find t.factKey with
  | none, none => .ok ()
  | none, some _ => .error .integrity
  | some _, none => .error .staleData
  | some f, some current => if current.version = f.version then .ok () else .error .staleData

end Finalizing

variable {t : Finalizing} {s s' : System} {fact : Option Fact} {e : FinalizeError} {a : Action}
  {p after : ℕ} {st : CallState}

namespace System

variable {snapshots : Bool}

def start (store : Store) : System := ⟨store, fun _ => none, fun _ => .idle⟩

def setCall (s : System) (p : ℕ) (st : CallState) : System :=
  { s with calls := update s.calls p st }

/-- The transaction ends and gives back its lock. -/
def finish (s : System) (p : ℕ) (factKey : String) (store : Store)
    (ending : Except FinalizeError Unit) : System where
  store := store
  locks := update s.locks factKey none
  calls := update s.calls p (.done ending)

/-- What follows the `SELECT` of the fact. -/
def selected (t : Finalizing) (fact : Option Fact) : CallState :=
  if t.Applied fact then .marking t
  else if fact.map Fact.version ≠ t.decision.beforeVersion then
    .done (.error (.versionConflict t.factKey t.decision.beforeVersion (fact.map Fact.version)))
  else .read t fact

/-- The state after an action, `none` when it is not enabled; `snapshots` says that a transaction reads what
had been committed at its first statement. -/
def step (snapshots : Bool) (s : System) : Action → Option System
  | .begin p t =>
    match s.calls p with
    | .idle => some (s.setCall p
        (match s.store.mutations.find t.mutationId with
          | none => .done (.error (.unknownMutation t.mutationId))
          | some _ => .begun t s.store))
    | _ => none
  | .select p =>
    match s.calls p with
    | .begun t snapshot =>
      let view := if snapshots then snapshot else s.store
      some (s.setCall p (selected t (view.facts.find t.factKey)))
    | _ => none
  | .flush p =>
    match s.calls p with
    | .read t fact =>
      if s.locks t.factKey ≠ none then none
      else
        match t.flush s.store fact with
        | .ok _ => some { s with
            locks := update s.locks t.factKey (some p)
            calls := update s.calls p (.flushed t fact) }
        | .error e => some (s.setCall p (.done (.error e)))
    | _ => none
  | .link p =>
    match s.calls p with
    | .flushed t fact => some (s.setCall p (.linked t fact))
    | _ => none
  | .commit p =>
    match s.calls p with
    | .linked t fact => some (s.finish p t.factKey (t.committed s.store fact) (.ok ()))
    | .marking t => some { s with
        store := t.marked s.store
        calls := update s.calls p (.done (.ok ())) }
    | _ => none
  | .abort p =>
    match s.calls p with
    | .begun _ _ | .marking _ | .read _ _ => some (s.setCall p (.done (.error .interrupted)))
    | .flushed t _ | .linked t _ => some (s.finish p t.factKey s.store (.error .interrupted))
    | .idle | .done _ => none

/-- **Every lost race is reported as a version conflict**: no call has let another exception of the database
through. -/
def Reported (s : System) : Prop :=
  ∀ p e, s.calls p = .done (.error e) → e ≠ .staleData ∧ e ≠ .integrity

/-- **The condition**: when a call flushes its fact, the fact still has the version the call has read. -/
def Unraced (s : System) : Action → Prop
  | .flush p =>
    match s.calls p with
    | .read t fact => (s.store.facts.find t.factKey).map Fact.version = fact.map Fact.version
    | _ => True
  | _ => True

instance (s : System) (a : Action) : Decidable (s.Unraced a) := by
  unfold Unraced
  split
  · split <;> infer_instance
  · infer_instance

/-! ### A flush -/

theorem flush_eq_ok_iff {s : Store} :
    t.flush s fact = .ok () ↔ (s.facts.find t.factKey).map Fact.version = fact.map Fact.version := by
  unfold Finalizing.flush
  cases fact with
  | none => cases s.facts.find t.factKey <;> simp
  | some f =>
    cases s.facts.find t.factKey with
    | none => simp
    | some current => by_cases h : current.version = f.version <;> simp [h]

theorem flush_error {s : Store} (h : t.flush s fact = .error e) : e = .staleData ∨ e = .integrity := by
  unfold Finalizing.flush at h
  split at h
  · cases h
  · cases h
    exact .inr rfl
  · cases h
    exact .inl rfl
  · split at h
    · cases h
    · cases h
      exact .inl rfl

/-! ### What a step does -/

/-- The call has not let an exception of the database through. -/
def Clean : CallState → Prop
  | .done (.error e) => e ≠ .staleData ∧ e ≠ .integrity
  | _ => True

theorem clean_selected (t : Finalizing) (fact : Option Fact) : Clean (selected t fact) := by
  unfold selected
  split
  · trivial
  · split
    · exact ⟨by simp, by simp⟩
    · trivial

/-- **Every step** moves one call that is not at its end: it commits, fails at its flush, or goes on without
touching the store. -/
inductive Moves (s : System) (a : Action) : System → Prop
  | commits {locks : String → Option ℕ} {store : Store} :
      (∀ ending, s.calls a.call ≠ .done ending) → s.Unraced a →
      Moves s a ⟨store, locks, update s.calls a.call (.done (.ok ()))⟩
  | fails {e : FinalizeError} : (∀ ending, s.calls a.call ≠ .done ending) → ¬ s.Unraced a →
      e = .staleData ∨ e = .integrity → Moves s a (s.setCall a.call (.done (.error e)))
  | goes {locks : String → Option ℕ} {st : CallState} : (∀ ending, s.calls a.call ≠ .done ending) →
      s.Unraced a → Clean st → Moves s a ⟨s.store, locks, update s.calls a.call st⟩

/-- All that a transaction of the race can do. -/
theorem step_moves (h : step snapshots s a = some s') : Moves s a s' := by
  cases a with
  | begin p t =>
    simp only [step] at h
    split at h
    · rename_i hcall
      cases h
      refine .goes (fun ending => by simp [Action.call, hcall]) trivial ?_
      split
      · exact ⟨by simp, by simp⟩
      · trivial
    · cases h
  | select p =>
    simp only [step] at h
    split at h
    · rename_i t snapshot hcall
      cases h
      exact .goes (fun ending => by simp [Action.call, hcall]) trivial (clean_selected t _)
    · cases h
  | flush p =>
    simp only [step] at h
    split at h
    · rename_i t fact hcall
      have hopen : ∀ ending, s.calls (Action.flush p).call ≠ .done ending :=
        fun ending => by simp [Action.call, hcall]
      have hunraced : s.Unraced (.flush p) ↔ t.flush s.store fact = .ok () := by
        rw [flush_eq_ok_iff]
        simp only [Unraced, hcall]
      split at h
      · cases h
      · cases hflush : t.flush s.store fact with
        | ok u =>
          rw [hflush] at h
          cases h
          exact .goes hopen (hunraced.mpr hflush) trivial
        | error e =>
          rw [hflush] at h
          cases h
          refine .fails hopen (fun hraced => ?_) (flush_error hflush)
          rw [hunraced.mp hraced] at hflush
          cases hflush
    · cases h
  | link p =>
    simp only [step] at h
    split at h
    · rename_i t fact hcall
      cases h
      exact .goes (fun ending => by simp [Action.call, hcall]) trivial trivial
    · cases h
  | commit p =>
    simp only [step] at h
    split at h
    · rename_i t fact hcall
      cases h
      exact .commits (fun ending => by simp [Action.call, hcall]) trivial
    · rename_i t hcall
      cases h
      exact .commits (fun ending => by simp [Action.call, hcall]) trivial
    · cases h
  | abort p =>
    have hclean : Clean (.done (.error .interrupted)) := ⟨by simp, by simp⟩
    simp only [step] at h
    cases hcall : s.calls p with
    | idle | done =>
      rw [hcall] at h
      cases h
    | begun | marking | read | flushed | linked =>
      rw [hcall] at h
      cases h
      exact .goes (fun ending => by simp [Action.call, hcall]) trivial hclean

theorem step_done (h : step snapshots s a = some s') {ending : Except FinalizeError Unit}
    (hdone : s.calls p = .done ending) : s'.calls p = .done ending := by
  have hupdate (st : CallState) (hopen : ∀ ending, s.calls a.call ≠ .done ending) :
      update s.calls a.call st p = .done ending := by
    have hne : p ≠ a.call := by
      intro heq
      subst heq
      exact hopen ending hdone
    rw [update_of_ne hne]
    exact hdone
  cases step_moves h with
  | commits hopen _ => exact hupdate _ hopen
  | fails hopen _ _ => exact hupdate _ hopen
  | goes hopen _ _ => exact hupdate _ hopen

theorem step_store (h : step snapshots s a = some s') :
    s'.store = s.store ∨ s'.calls a.call = .done (.ok ()) := by
  cases step_moves h with
  | commits _ _ => exact .inr (update_self ..)
  | fails _ _ _ => exact .inl rfl
  | goes _ _ _ => exact .inl rfl

/-! ### What is reported -/

theorem reported_update (h : s.Reported) (hst : Clean st) {store : Store} {locks : String → Option ℕ} :
    Reported ⟨store, locks, update s.calls p st⟩ := by
  intro q e hq
  change update s.calls p st q = _ at hq
  by_cases hqp : q = p
  · subst hqp
    rw [update_self] at hq
    rw [hq] at hst
    exact hst
  · rw [update_of_ne hqp] at hq
    exact h q e hq

theorem step_reported (h : s.Reported)
    (hstep : step snapshots s a = some s') : s.Unraced a ↔ s'.Reported := by
  cases step_moves hstep with
  | commits _ hunraced =>
    have hclean : Clean (.done (.ok ())) := trivial
    exact iff_of_true hunraced (reported_update h hclean)
  | goes _ hunraced hclean => exact iff_of_true hunraced (reported_update h hclean)
  | @fails e _ hraced herror =>
    refine iff_of_false hraced fun hreported => ?_
    have hdone : (s.setCall a.call (.done (.error e))).calls a.call = .done (.error e) :=
      update_self ..
    obtain ⟨hstale, hintegrity⟩ := hreported a.call e hdone
    rcases herror with rfl | rfl
    · exact hstale rfl
    · exact hintegrity rfl

theorem untouched {s₀ : System} {run : List Action} (hrun : exec (step snapshots) s₀ run = some s)
    (hp : s.calls p = .done (.error e)) {pre : List Action} {m m' : System} (hpre : pre ++ [a] <+: run)
    (ha : a.call = p) (hm : exec (step snapshots) s₀ pre = some m) (hm' : step snapshots m a = some m') :
    m'.store = m.store := by
  rcases step_store hm' with hstore | hdone
  · exact hstore
  · obtain ⟨rest, rfl⟩ := hpre
    rw [List.append_assoc, exec_append, hm, Option.bind_some] at hrun
    obtain ⟨k, hk, hrest⟩ := exec_cons_eq_some.mp hrun
    obtain rfl := Option.some.inj (hm'.symm.trans hk)
    rw [ha] at hdone
    have hend : s.calls p = .done (.ok ()) :=
      exec_preserves (I := fun s => s.calls p = .done (.ok ()))
        (fun _ _ _ hs h => step_done h hs) hrest hdone
    rw [hend] at hp
    cases hp

/-- **Every lost race is a version conflict exactly in the runs in which no fact changes between the `SELECT`
and the flush of a call**; and in every run a call that raises has changed nothing. -/
theorem race_reported_iff (store : Store) {run : List Action} {s : System}
    (hrun : exec (step snapshots) (start store) run = some s) :
    (Meets (step snapshots) Unraced (start store) run ↔
      ∀ pre m, pre <+: run → exec (step snapshots) (start store) pre = some m → m.Reported) ∧
    ∀ p e, s.calls p = .done (.error e) → ∀ pre a m m', pre ++ [a] <+: run → a.call = p →
      exec (step snapshots) (start store) pre = some m → step snapshots m a = some m' →
      m'.store = m.store := by
  constructor
  · apply meets_iff_throughout (I := fun _ => True) (fun _ _ _ _ _ => trivial)
      (fun _ _ _ _ hs h => step_reported hs h) hrun trivial
    intro p e hp
    cases hp
  · intro p e hp pre a m m' hpre ha hm hm'
    exact untouched hrun hp hpre ha hm hm'

/-! ### Two transactions -/

def raised : CallState → Option FinalizeError
  | .done (.error e) => some e
  | _ => none

theorem raised_eq_some : raised st = some e ↔ st = .done (.error e) := by
  cases st with
  | done ending => cases ending <;> simp [raised]
  | _ => simp [raised]

/-- Two mutations of one fact, which is there with version 1 or is not there. -/
def exampleStore (present : Bool) : Store where
  facts :=
    if present then
      Table.empty.upsert (.ofCommand (exampleCommand "K-0" "open" none) "R-1" 1 .active 0 0)
    else Table.empty
  mutations :=
    ⟨[.requested (exampleCommand "K-1" "open" none) "R-1" 1,
      .requested (exampleCommand "K-2" "closed" none) "R-1" 2], by decide⟩
  evidence := []
  projections := Table.empty
  nextId := 3

/-- Either mutation has been decided on what is there. -/
def exampleFinalizing (present : Bool) (mutationId : ℕ) : Finalizing where
  mutationId := mutationId
  command := exampleCommand "K-1" "open" (if present then some 1 else none)
  factKey := "R-1"
  decision := {
    decision := if present then .replace else .create
    reasonCode := if present then "HUMAN_CONFIRMED" else "NEW_FACT"
    beforeVersion := if present then some 1 else none
    afterVersion := if present then some 2 else some 1
    proposedStatus := .active
    requiresProjection := true }
  now := 0

/-- The second transaction has read the fact when the first one commits. -/
def overlapping (present : Bool) : List Action :=
  [.begin 0 (exampleFinalizing present 1), .begin 1 (exampleFinalizing present 2), .select 0, .select 1,
    .flush 0, .link 0, .commit 0, .flush 1]

/-- The second transaction reads the fact after the first one has committed. -/
def following (present : Bool) : List Action :=
  [.begin 0 (exampleFinalizing present 1), .begin 1 (exampleFinalizing present 2), .select 0,
    .flush 0, .link 0, .commit 0, .select 1]

/-- A transaction that reads the fact after the other one has committed raises the conflict. -/
theorem race_reported_iff_following :
    ∃ s, exec (step false) (start (exampleStore true)) (following true) = some s ∧
      s.calls 1 = .done (.error (.versionConflict "R-1" (some 1) (some 2))) ∧
      ∀ pre m, pre <+: following true →
        exec (step false) (start (exampleStore true)) pre = some m → m.Reported := by
  have hrun : (exec (step false) (start (exampleStore true)) (following true)).map
      (fun s => raised (s.calls 1)) = some (some (.versionConflict "R-1" (some 1) (some 2))) := by
    decide +kernel
  have hmeets : Meets (step false) Unraced (start (exampleStore true)) (following true) := by
    decide +kernel
  obtain ⟨s, hs, hraised⟩ := Option.map_eq_some_iff.mp hrun
  exact ⟨s, hs, raised_eq_some.mp hraised, (race_reported_iff (exampleStore true) hs).1.mp hmeets⟩

/-- The loser of two overlapping updates raises `StaleDataError`, that of two inserts `IntegrityError`. -/
theorem lost_race_unreported :
    (exec (step false) (start (exampleStore true)) (overlapping true)).map
      (fun s => raised (s.calls 1)) = some (some .staleData) ∧
    (exec (step false) (start (exampleStore false)) (overlapping false)).map
      (fun s => raised (s.calls 1)) = some (some .integrity) := by
  constructor <;> decide +kernel

/-! ### One transaction -/

theorem row_none (hafter : t.decision.afterVersion = some after)
    (hstatus : t.decision.proposedStatus = .active) :
    t.row none = .ofCommand t.command t.factKey (if after = 0 then 1 else after) .active t.mutationId
      t.now := by
  unfold Finalizing.row
  rw [hafter, hstatus]
  cases after <;> simp

theorem finalizeCanonical_cases {s s' : Store} (hafter : t.decision.afterVersion = some after)
    (hstatus : t.decision.proposedStatus = .active)
    (h : s.finalizeCanonical t.mutationId t.command t.factKey t.decision.beforeVersion after t.now =
      .ok s') :
    selected t (s.facts.find t.factKey) = .marking t ∧ s' = t.marked s ∨
    selected t (s.facts.find t.factKey) = .read t (s.facts.find t.factKey) ∧
      s' = t.committed s (s.facts.find t.factKey) := by
  have happlied : (∃ f ∈ s.facts.find t.factKey, f.lastMutationId = t.mutationId ∧ f.version = after) ↔
      t.Applied (s.facts.find t.factKey) := by
    simp [Finalizing.Applied, hafter]
  unfold Store.finalizeCanonical at h
  cases hmutation : s.mutations.find t.mutationId with
  | none =>
    rw [hmutation] at h
    cases h
  | some mutation =>
    rw [hmutation] at h
    simp only [happlied] at h
    unfold selected Finalizing.marked Finalizing.committed
    rw [hmutation]
    split at h
    · rename_i hyes
      cases h
      exact .inl ⟨if_pos hyes, rfl⟩
    · rename_i hno
      split at h
      · cases h
      · rename_i hversion
        refine .inr ⟨by rw [if_neg hno, if_neg hversion], ?_⟩
        cases hfact : s.facts.find t.factKey with
        | none =>
          rw [hfact] at h
          rw [row_none hafter hstatus]
          exact (Except.ok.inj h).symm
        | some f =>
          rw [hfact] at h
          rw [Finalizing.row, hstatus]
          exact (Except.ok.inj h).symm

theorem begun_of_finalizeCanonical {s s' : Store}
    (h : s.finalizeCanonical t.mutationId t.command t.factKey t.decision.beforeVersion after t.now =
      .ok s') : ∃ mutation, s.mutations.find t.mutationId = some mutation := by
  unfold Store.finalizeCanonical at h
  split at h
  · cases h
  · rename_i mutation hmutation
    exact ⟨mutation, hmutation⟩

/-- **A transaction that meets no other one is the transaction of the repository.** -/
theorem alone {s s' : Store} (hafter : t.decision.afterVersion = some after)
    (hstatus : t.decision.proposedStatus = .active)
    (h : s.finalizeCanonical t.mutationId t.command t.factKey t.decision.beforeVersion after t.now =
      .ok s') :
    ∃ run, (exec (step snapshots) (start s) run).map (fun m => (m.store, m.calls 0)) =
      some (s', .done (.ok ())) := by
  obtain ⟨mutation, hmutation⟩ := begun_of_finalizeCanonical h
  rcases finalizeCanonical_cases hafter hstatus h with ⟨hselected, hs'⟩ | ⟨hselected, hs'⟩
  · refine ⟨[.begin 0 t, .select 0, .commit 0], ?_⟩
    simp [exec, step, start, setCall, hmutation, hselected, hs']
  · have hflush : t.flush s (s.facts.find t.factKey) = .ok () := flush_eq_ok_iff.mpr rfl
    refine ⟨[.begin 0 t, .select 0, .flush 0, .link 0, .commit 0], ?_⟩
    simp [exec, step, start, setCall, finish, hmutation, hselected, hflush, hs']

end System

end CountyFlow.Memory.Race
