import CountyFlow.Audit.Service

/-!
# What an approval says

The audit approves where no block rejects, whatever `dispatch_execution` says.
-/

namespace CountyFlow.Audit

open CountyFlow.Core
open CountyFlow.Graph (AuditChecks)

/-- Every check but `dispatch_execution`. -/
def othersPass (checks : AuditChecks) : Prop :=
  checks.routeConsistency = true ∧ checks.memoryConsistency = true ∧ checks.fallbackConsistency = true ∧
    checks.vehicleAssignment = true ∧ checks.capacityConstraint = true ∧
    checks.routeConnectivity = true ∧ checks.blockedEdgeExclusion = true

def allPass (checks : AuditChecks) : Prop := othersPass checks ∧ checks.dispatchExecution = true

instance (checks : AuditChecks) : Decidable (allPass checks) := by
  unfold allPass othersPass
  infer_instance

/-! ### The blocks -/

/-- **What a block does**: `dispatch_execution` stays, a rejection comes where `fails` holds, and without one
the checks that passed still pass. -/
structure Audits (block : Block) (fails : Prop) : Prop where
  keeps : ∀ {checks noted reason}, block checks = .ok (noted, reason) →
    noted.dispatchExecution = checks.dispatchExecution
  rejects : ∀ {checks noted reason}, block checks = .ok (noted, reason) → (reason ≠ none ↔ fails)
  passes : ∀ {checks noted}, block checks = .ok (noted, none) → othersPass checks → othersPass noted

theorem audits_single {applies passes : Bool} {note : AuditChecks → AuditChecks} {reason : String}
    (hkeeps : ∀ checks, (note checks).dispatchExecution = checks.dispatchExecution)
    (hpasses : passes = true → ∀ checks, othersPass checks → othersPass (note checks)) :
    Audits (single applies passes note reason) (applies = true ∧ passes = false) := by
  refine ⟨?_, ?_, ?_⟩
  · intro checks noted reason' h
    unfold single at h
    split at h
    · cases h
      exact hkeeps checks
    · cases h
      rfl
  · intro checks noted reason' h
    unfold single at h
    split at h
    · rename_i happlies
      cases h
      cases passes <;> simp [happlies]
    · rename_i happlies
      cases h
      simp [happlies]
  · intro checks noted h hothers
    unfold single at h
    split at h
    · cases hpassed : passes with
      | true =>
        rw [hpassed] at h
        cases h
        exact hpasses hpassed checks hothers
      | false =>
        rw [hpassed] at h
        cases h
    · cases h
      exact hothers

theorem audits_pair {applies : Bool} {first second : Except AuditError Bool}
    {note : Bool → Bool → AuditChecks → AuditChecks} {firstReason secondReason : String}
    (hkeeps : ∀ a b checks, (note a b checks).dispatchExecution = checks.dispatchExecution)
    (hpasses : ∀ checks, othersPass checks → othersPass (note true true checks)) :
    Audits (pair applies first second note firstReason secondReason)
      (applies = true ∧ (first = .ok false ∨ second = .ok false)) := by
  have hanswer {checks noted : AuditChecks} {reason : Option String}
      (h : pair applies first second note firstReason secondReason checks = .ok (noted, reason)) :
      (applies = false ∧ noted = checks ∧ reason = none) ∨
        ∃ a b, applies = true ∧ first = .ok a ∧ second = .ok b ∧ noted = note a b checks ∧
          (reason ≠ none ↔ a = false ∨ b = false) := by
    cases applies with
    | false =>
      cases h
      exact .inl ⟨rfl, rfl, rfl⟩
    | true =>
      cases first with
      | error e => cases h
      | ok a =>
        cases second with
        | error e => cases h
        | ok b =>
          cases h
          refine .inr ⟨a, b, rfl, rfl, rfl, rfl, ?_⟩
          cases a <;> cases b <;> simp
  refine ⟨?_, ?_, ?_⟩
  · intro checks noted reason h
    rcases hanswer h with ⟨-, rfl, -⟩ | ⟨a, b, -, -, -, rfl, -⟩
    · rfl
    · exact hkeeps a b checks
  · intro checks noted reason h
    rcases hanswer h with ⟨happlies, -, rfl⟩ | ⟨a, b, happlies, hfirst, hsecond, -, hreason⟩
    · simp [happlies]
    · rw [hreason, hfirst, hsecond]
      simp [happlies]
  · intro checks noted h hothers
    rcases hanswer h with ⟨-, rfl, -⟩ | ⟨a, b, -, -, -, rfl, hreason⟩
    · exact hothers
    · have hnone : ¬ (a = false ∨ b = false) := fun hf => hreason.mpr hf rfl
      have ha : a = true := by simpa using fun hf => hnone (.inl hf)
      have hb : b = true := by simpa using fun hf => hnone (.inr hf)
      rw [ha, hb]
      exact hpasses checks hothers

section Blocks

variable (evidence : State)

theorem audits_rerouteBlock : Audits (rerouteBlock evidence)
    (decide (decision evidence = some "REROUTE") = true ∧ rerouted evidence = false) := by
  apply audits_single
  · intro checks
    rfl
  · rintro hpassed checks ⟨-, hothers⟩
    exact ⟨hpassed, hothers⟩

theorem audits_keepRouteBlock : Audits (keepRouteBlock evidence)
    (decide (decision evidence = some "KEEP_ROUTE") = true ∧ keptRoute evidence = false) := by
  apply audits_single
  · intro checks
    rfl
  · rintro hpassed checks ⟨-, hothers⟩
    exact ⟨hpassed, hothers⟩

theorem audits_memoryBlock : Audits (memoryBlock evidence)
    (decide (evidence.get "memory_adopted" = .bool true) = true ∧ memoryConsistency evidence = false) := by
  apply audits_single
  · intro checks
    rfl
  · rintro hpassed checks ⟨hroute, -, hothers⟩
    exact ⟨hroute, hpassed, hothers⟩

theorem audits_fallbackBlock : Audits (fallbackBlock evidence)
    (decide (evidence.get "fallback_used" = .bool true) = true ∧
      fallbackConsistency evidence = false) := by
  apply audits_single
  · intro checks
    rfl
  · rintro hpassed checks ⟨hroute, hmemory, -, hothers⟩
    exact ⟨hroute, hmemory, hpassed, hothers⟩

theorem audits_noSafeRouteBlock : Audits (noSafeRouteBlock evidence)
    (decision evidence = some "NO_SAFE_ROUTE" ∧ executed evidence = true) := by
  refine ⟨?_, ?_, ?_⟩
  · intro checks noted reason h
    unfold noSafeRouteBlock at h
    split at h <;> (cases h; rfl)
  · intro checks noted reason h
    unfold noSafeRouteBlock at h
    split at h
    · rename_i hfails
      cases h
      exact iff_of_true (by simp) hfails
    · rename_i hfails
      cases h
      exact iff_of_false (by simp) hfails
  · intro checks noted h hothers
    unfold noSafeRouteBlock at h
    split at h
    · cases h
    · cases h
      exact hothers

theorem audits_breakdownBlock : Audits (breakdownBlock evidence)
    (brokenDown evidence = true ∧
      (vehicleAssignment evidence = .ok false ∨ capacityConstraint evidence = .ok false)) := by
  apply audits_pair
  · intro a b checks
    rfl
  · rintro checks ⟨hroute, hmemory, hfallback, -, -, hothers⟩
    exact ⟨hroute, hmemory, hfallback, rfl, rfl, hothers⟩

theorem audits_roadBlock : Audits (roadBlock evidence)
    (roadBlocked evidence = true ∧
      (Except.ok (routeConnectivity evidence) = (.ok false : Except AuditError Bool) ∨
        blockedEdgeExclusion evidence = .ok false)) := by
  apply audits_pair
  · intro a b checks
    rfl
  · rintro checks ⟨hroute, hmemory, hfallback, hvehicle, hcapacity, -, -⟩
    exact ⟨hroute, hmemory, hfallback, hvehicle, hcapacity, rfl, rfl⟩

end Blocks

/-! ### The blocks one after another -/

theorem verdict_spec {blocks : List (Block × Prop)} (hblocks : ∀ b ∈ blocks, Audits b.1 b.2)
    {checks : AuditChecks} {answer : Verdict} (h : verdict checks (blocks.map Prod.fst) = .ok answer) :
    answer.checks.dispatchExecution = checks.dispatchExecution ∧
      ((answer.status = .approved ∧ answer.requiresManualReview = false ∧ (∀ b ∈ blocks, ¬ b.2) ∧
          (othersPass checks → othersPass answer.checks)) ∨
        (answer.status = .rejected ∧ ∃ b ∈ blocks, b.2)) := by
  induction blocks generalizing checks with
  | nil =>
    cases h
    exact ⟨rfl, .inl ⟨rfl, rfl, by simp, id⟩⟩
  | cons b rest ih =>
    have haudits := hblocks b List.mem_cons_self
    have hrest : ∀ c ∈ rest, Audits c.1 c.2 := fun c hc => hblocks c (List.mem_cons_of_mem b hc)
    rw [List.map_cons, verdict] at h
    split at h
    · cases h
    · rename_i noted reason hblock
      cases h
      refine ⟨haudits.keeps hblock, .inr ⟨rfl, b, List.mem_cons_self, ?_⟩⟩
      exact (haudits.rejects hblock).mp (by simp)
    · rename_i noted hblock
      have hpassed : ¬ b.2 := fun hfails => (haudits.rejects hblock).mpr hfails rfl
      obtain ⟨hkept, hcases⟩ := ih hrest h
      refine ⟨hkept.trans (haudits.keeps hblock), ?_⟩
      rcases hcases with ⟨hstatus, hmanual, hnone, hothers⟩ | ⟨hstatus, c, hc, hfails⟩
      · refine .inl ⟨hstatus, hmanual, ?_, fun h => hothers (haudits.passes hblock h)⟩
        intro c hc
        rcases List.mem_cons.mp hc with rfl | hc
        · exact hpassed
        · exact hnone c hc
      · exact .inr ⟨hstatus, c, List.mem_cons_of_mem b hc, hfails⟩

def audited (evidence : State) : List (Block × Prop) :=
  [(breakdownBlock evidence, brokenDown evidence = true ∧
      (vehicleAssignment evidence = .ok false ∨ capacityConstraint evidence = .ok false)),
    (roadBlock evidence, roadBlocked evidence = true ∧
      (Except.ok (routeConnectivity evidence) = (.ok false : Except AuditError Bool) ∨
        blockedEdgeExclusion evidence = .ok false)),
    (noSafeRouteBlock evidence, decision evidence = some "NO_SAFE_ROUTE" ∧ executed evidence = true),
    (rerouteBlock evidence,
      decide (decision evidence = some "REROUTE") = true ∧ rerouted evidence = false),
    (keepRouteBlock evidence,
      decide (decision evidence = some "KEEP_ROUTE") = true ∧ keptRoute evidence = false),
    (memoryBlock evidence, decide (evidence.get "memory_adopted" = .bool true) = true ∧
      memoryConsistency evidence = false),
    (fallbackBlock evidence, decide (evidence.get "fallback_used" = .bool true) = true ∧
      fallbackConsistency evidence = false)]

theorem audited_spec (evidence : State) : ∀ b ∈ audited evidence, Audits b.1 b.2 := by
  intro b hb
  simp only [audited, List.mem_cons, List.not_mem_nil, or_false] at hb
  rcases hb with rfl | rfl | rfl | rfl | rfl | rfl | rfl
  · exact audits_breakdownBlock evidence
  · exact audits_roadBlock evidence
  · exact audits_noSafeRouteBlock evidence
  · exact audits_rerouteBlock evidence
  · exact audits_keepRouteBlock evidence
  · exact audits_memoryBlock evidence
  · exact audits_fallbackBlock evidence

/-! ### The approval -/

/-- **An approved audit means every check passed**, and evidence without an executed dispatch is not
approved. -/
structure Report.Sound (evidence : State) (report : Report) : Prop where
  approved : report.auditStatus = .approved →
    allPass report.checks ∧ report.passed = true ∧ report.requiresManualReview = false
  failed : ¬ allPass report.checks →
    report.auditStatus = .rejected ∨ report.auditStatus = .reviewRequired
  executed : executed evidence = false → report.auditStatus ≠ .approved

/-- **The condition**: the dispatch was executed, has to be reviewed, or is one that a check of its decision,
its vehicle, its road, its memory or its fallback rejects. -/
def ExecutedOrStopped (evidence : State) : Prop :=
  executed evidence = true ∨ underReview evidence = true ∨
    decision evidence = some "REROUTE" ∨ decision evidence = some "KEEP_ROUTE" ∨
    (brokenDown evidence = true ∧
      (vehicleAssignment evidence = .ok false ∨ capacityConstraint evidence = .ok false)) ∨
    (roadBlocked evidence = true ∧
      (routeConnectivity evidence = false ∨ blockedEdgeExclusion evidence = .ok false)) ∨
    (evidence.get "memory_adopted" = .bool true ∧ memoryConsistency evidence = false) ∨
    (evidence.get "fallback_used" = .bool true ∧ fallbackConsistency evidence = false)

theorem audit_cases {evidence : State} {recorded : Except AuditError (Option ℕ)} {report : Report}
    (h : audit evidence recorded = .ok report) :
    report.passed = decide (report.auditStatus = .approved) ∧
    report.checks.dispatchExecution = executed evidence ∧
      ((report.auditStatus = .approved ∧ report.requiresManualReview = false ∧
          othersPass report.checks ∧ underReview evidence = false ∧ ∀ b ∈ audited evidence, ¬ b.2) ∨
        (report.auditStatus = .rejected ∧ ∃ b ∈ audited evidence, b.2) ∨
        (report.auditStatus = .reviewRequired ∧ underReview evidence = true)) := by
  unfold audit at h
  cases hverdict : evaluate evidence with
  | error e =>
    rw [hverdict] at h
    cases h
  | ok answer =>
    cases recorded with
    | error e =>
      rw [hverdict] at h
      cases h
    | ok recordId =>
      rw [hverdict] at h
      cases h
      refine ⟨rfl, ?_⟩
      show answer.checks.dispatchExecution = _ ∧
        ((answer.status = _ ∧ answer.requiresManualReview = _ ∧ othersPass answer.checks ∧ _) ∨
          (answer.status = _ ∧ _) ∨ (answer.status = _ ∧ _))
      unfold evaluate at hverdict
      split at hverdict
      · rename_i hreview
        cases hverdict
        exact ⟨rfl, .inr (.inr ⟨rfl, hreview⟩)⟩
      · rename_i hreview
        have hreview : underReview evidence = false := by simpa using hreview
        obtain ⟨hkept, hcases⟩ := verdict_spec (audited_spec evidence) hverdict
        refine ⟨hkept, ?_⟩
        rcases hcases with ⟨hstatus, hmanual, hnone, hothers⟩ | hrejected
        · have hpass : othersPass (initialChecks evidence) := ⟨rfl, rfl, rfl, rfl, rfl, rfl, rfl⟩
          exact .inl ⟨hstatus, hmanual, hothers hpass, hreview, hnone⟩
        · exact .inr (.inl hrejected)

theorem executedOrStopped_of_rejected {evidence : State} {b : Block × Prop} (hb : b ∈ audited evidence)
    (hfails : b.2) : ExecutedOrStopped evidence := by
  unfold ExecutedOrStopped
  simp only [audited, List.mem_cons, List.not_mem_nil, or_false] at hb
  rcases hb with rfl | rfl | rfl | rfl | rfl | rfl | rfl
  · simp only at hfails
    tauto
  · simp only [Except.ok.injEq] at hfails
    tauto
  · exact .inl hfails.2
  · have hdecision := of_decide_eq_true hfails.1
    tauto
  · have hdecision := of_decide_eq_true hfails.1
    tauto
  · have hadopted := of_decide_eq_true hfails.1
    have hmemory := hfails.2
    tauto
  · have hused := of_decide_eq_true hfails.1
    have hfallback := hfails.2
    tauto

theorem executed_of_executedOrStopped {evidence : State} (h : ExecutedOrStopped evidence)
    (hreview : underReview evidence = false) (hnone : ∀ b ∈ audited evidence, ¬ b.2) :
    executed evidence = true := by
  simp only [audited, List.mem_cons, List.not_mem_nil, or_false, forall_eq_or_imp, forall_eq,
    decide_eq_true_eq, Except.ok.injEq] at hnone
  obtain ⟨hbreakdown, hroad, -, hreroute, hkeep, hmemory, hfallback⟩ := hnone
  by_contra hnot
  have hexecuted : executed evidence = false := by simpa using hnot
  rcases h with h | h | h | h | h | h | h | h
  · exact hnot h
  · rw [hreview] at h
    cases h
  · exact hreroute ⟨h, by simp [rerouted, hexecuted]⟩
  · exact hkeep ⟨h, by simp [keptRoute, hexecuted]⟩
  · exact hbreakdown h
  · exact hroad h
  · exact hmemory h
  · exact hfallback h

/-- **An approval means that every check passed exactly where the dispatch was executed or something else
keeps the audit from approving.** -/
theorem approval_iff {evidence : State} {recorded : Except AuditError (Option ℕ)} {report : Report}
    (h : audit evidence recorded = .ok report) : report.Sound evidence ↔ ExecutedOrStopped evidence := by
  obtain ⟨hpassed, hexecution, hcases⟩ := audit_cases h
  constructor
  · intro hsound
    rcases hcases with ⟨hstatus, -, -, -, -⟩ | ⟨-, b, hb, hfails⟩ | ⟨-, hreview⟩
    · refine .inl ?_
      by_contra hnot
      exact hsound.executed (by simpa using hnot) hstatus
    · exact executedOrStopped_of_rejected hb hfails
    · exact .inr (.inl hreview)
  · intro hcondition
    rcases hcases with ⟨hstatus, hmanual, hothers, hreview, hnone⟩ | ⟨hstatus, -⟩ | ⟨hstatus, -⟩
    · have hexecuted := executed_of_executedOrStopped hcondition hreview hnone
      have hall : allPass report.checks := ⟨hothers, hexecution.trans hexecuted⟩
      refine ⟨fun _ => ⟨hall, ?_, hmanual⟩, fun hfail => absurd hall hfail, fun hfalse => ?_⟩
      · rw [hpassed, hstatus]
        rfl
      · rw [hexecuted] at hfalse
        cases hfalse
    · refine ⟨fun happroved => ?_, fun _ => .inl hstatus, fun _ => ?_⟩
      · rw [hstatus] at happroved
        cases happroved
      · rw [hstatus]
        decide
    · refine ⟨fun happroved => ?_, fun _ => .inr hstatus, fun _ => ?_⟩
      · rw [hstatus] at happroved
        cases happroved
      · rw [hstatus]
        decide

/-- The evidence of a rerouted task whose dispatch was executed. -/
def reroutedEvidence : State :=
  [("task_id", .str "TASK-001"), ("decision", .str "REROUTE"), ("recommended_route", .str "national-102"),
    ("requires_manual_review", .bool false), ("error_code", .none),
    ("dispatch_result", .dict [("dispatch_id", .int 1), ("target_route_id", .str "national-102"),
      ("executed", .bool true)])]

theorem approval_iff_rerouted : ∃ report, audit reroutedEvidence (.ok (some 1)) = .ok report ∧
    report.auditStatus = .approved ∧ report.Sound reroutedEvidence := by
  have happroved : (audit reroutedEvidence (.ok (some 1))).map Report.auditStatus = .ok .approved := by
    decide +kernel
  cases h : audit reroutedEvidence (.ok (some 1)) with
  | error e =>
    rw [h] at happroved
    cases happroved
  | ok report =>
    rw [h] at happroved
    exact ⟨report, rfl, Except.ok.inj happroved, (approval_iff h).mpr (.inl (by decide +kernel))⟩

/-- The routing found no safe route, and nothing was dispatched. -/
def noSafeRouteEvidence : State :=
  [("task_id", .str "TASK-001"), ("decision", .str "NO_SAFE_ROUTE"),
    ("requires_manual_review", .bool false), ("error_code", .none), ("dispatch_result", .dict [])]

/-- **No dispatch, and it is approved.** -/
theorem approved_without_dispatch : ∃ report, audit noSafeRouteEvidence (.ok none) = .ok report ∧
    report.auditStatus = .approved ∧ report.passed = true ∧
    report.checks.dispatchExecution = false ∧ ¬ report.Sound noSafeRouteEvidence := by
  have hfacts : (audit noSafeRouteEvidence (.ok none)).map (fun report =>
      (report.auditStatus, report.passed, report.checks.dispatchExecution)) =
        .ok (.approved, true, false) := by
    decide +kernel
  cases h : audit noSafeRouteEvidence (.ok none) with
  | error e =>
    rw [h] at hfacts
    cases hfacts
  | ok report =>
    rw [h] at hfacts
    obtain ⟨hstatus, hrest⟩ := Prod.mk.inj (Except.ok.inj hfacts)
    obtain ⟨hpassed, hexecution⟩ := Prod.mk.inj hrest
    refine ⟨report, rfl, hstatus, hpassed, hexecution, fun hsound => ?_⟩
    rw [(hsound.approved hstatus).1.2] at hexecution
    cases hexecution

end CountyFlow.Audit
