import CountyFlow.Graph.Plans

/-!
# A requested review

Intake and capacity can ask for a manual review.  The routing node writes the request anew, from
nothing but its own reasons.
-/

namespace CountyFlow.Graph

open CountyFlow.Lib CountyFlow.Road CountyFlow.Dispatch

/-! ### What is said of a run -/

/-- `audit_status` of the audit result. -/
def GraphState.auditStatus (s : GraphState) : Option Worker.AuditResult :=
  s.auditReport.map AuditReport.auditStatus

/-- The graph has a way to find routes, and dispatch and audit are configured. -/
def Services.Configured (v : Services) : Prop :=
  (∃ r, v.routing = some r ∧ (r.routeProvider.isSome = true ∨ r.canPlan = true)) ∧
    v.dispatch.isSome = true ∧ v.audit.isSome = true

/-- Intake or capacity has asked for a review. -/
def Services.Warned (v : Services) (s₀ s₅ : GraphState) : Prop :=
  (v.received s₀).requiresManualReview = some true ∨ s₅.requiresManualReview = some true

/-- Nothing has been dispatched without a review. -/
def GraphState.Held (s : GraphState) : Prop :=
  s.executed = false ∧ s.auditStatus ≠ some .approved

/-! ### The reasons of the routing node -/

/-- The plan has no path left, or the provider no route that has a name. -/
def RoutingService.NothingLeft (v : RoutingService) (restores : Bool) (fuel : ℕ) (s : GraphState) :
    Prop :=
  match v.planningEnds s with
  | some (origin, destination) => ∀ context snapshot,
      s.planningContext origin destination = .ok context → v.network (handed restores s) = some snapshot →
        remainingPaths fuel snapshot context (blockedEdges s.affectedEdgeIds) = .ok []
  | none => ∀ provider status best, v.routeProvider = some provider →
      s.capacityStatus = some status →
      v.bestRoute provider s.routeId s.memoryResults.head? (s.roadCondition.getD "unknown")
        (s.environmentRisk.getD "elevated") status = some best →
      best.routeId = "" ∧ s.routeId ≠ "" ∧ s.reassignedBreakdown = false

/-- The routing node has a reason of its own to ask for a review. -/
def RoutingService.Objects (v : RoutingService) (restores : Bool) (fuel : ℕ) (s : GraphState) : Prop :=
  s.actionOnly = true ∨ (∃ status, s.capacityStatus = some status ∧ status.closed = true) ∨
    v.NothingLeft restores fuel s

/-- **A request survives.**  Either a new dispatch is created and the routing node objects, or the
dispatch that is there is under review, or no vehicle is reserved and nothing was executed before. -/
def ReviewKept (v : RoutingService) (restores : Bool) (fuel : ℕ) (world : List (CallOutcome × Store))
    (s : GraphState) : Prop :=
  match s.dispatchRequest.execute world with
  | some (.created _ _) => v.Objects restores fuel s
  | some (.replayed _ result) => result.status = .reviewRequired
  | some (.raised _ _) => s.executed = false
  | _ => True

/-! ### The routing node asks for a review exactly when it objects -/

namespace RoutingService

variable {v : RoutingService} {restores : Bool} {fuel : ℕ} {s : GraphState} {result : RoutingResult}

theorem needsReview_eq_false (hreview : result.requiresManualReview = false) (haction : s.actionOnly = false)
    (hroute : result.decision = .reroute → s.finalRoute result ≠ none) : s.needsReview result = false := by
  unfold GraphState.needsReview
  rw [hreview, haction, Bool.false_or, Bool.false_or, decide_eq_false_iff_not]
  rintro ⟨hreroute, hnone⟩
  exact hroute hreroute hnone

theorem needsReview_of_actionOnly (haction : s.actionOnly = true) : s.needsReview result = true := by
  unfold GraphState.needsReview
  rw [haction, Bool.or_true, Bool.true_or]

theorem needsReview_of_declined (h : Declined result) : s.needsReview result = true := by
  unfold GraphState.needsReview
  rw [h.review, Bool.true_or, Bool.true_or]

theorem not_closed {status : CapacityStatus} (hstatus : s.capacityStatus = some status)
    (hopen : status.closed = false) : ¬ ∃ status, s.capacityStatus = some status ∧ status.closed = true := by
  rintro ⟨other, hother, hclosed⟩
  rw [hstatus] at hother
  cases hother
  rw [hopen] at hclosed
  cases hclosed

theorem needsReview_planned {origin destination : String}
    (hends : v.planningEnds s = some (origin, destination)) (h : v.answer restores fuel s = .ok result) :
    s.needsReview result = true ↔ v.Objects restores fuel s := by
  obtain ⟨context, status, hcontext, hstatus, hplan⟩ := answer_planned hends h
  have hleft : v.NothingLeft restores fuel s ↔ ∀ snapshot,
      v.network (handed restores s) = some snapshot →
        remainingPaths fuel snapshot context (blockedEdges s.affectedEdgeIds) = .ok [] := by
    unfold NothingLeft
    rw [hends]
    constructor
    · intro hall snapshot hsnapshot
      exact hall context snapshot hcontext hsnapshot
    · intro hall other snapshot hother hsnapshot
      rw [hcontext] at hother
      cases hother
      exact hall snapshot hsnapshot
  rcases plan_ok hplan with ⟨hdeclined, hwhy⟩ | ⟨hopen, snapshot, path, hnetwork, hsome, hplanned⟩
  · refine iff_of_true (needsReview_of_declined hdeclined) ?_
    rcases hwhy with hclosed | hnone
    · exact .inr (.inl ⟨status, hstatus, hclosed⟩)
    · exact .inr (.inr (hleft.mpr hnone))
  · cases haction : s.actionOnly with
    | true => exact iff_of_true (needsReview_of_actionOnly haction) (.inl haction)
    | false =>
      have hfinal := GraphState.finalRoute_of_named haction hplanned.recommendedRoute
        (pathRouteId_ne_empty path.edgeIds) hplanned.candidate
      have hno := needsReview_eq_false hplanned.review haction fun _ => by
        rw [hfinal]
        exact Option.some_ne_none _
      refine iff_of_false (by rw [hno]; decide) ?_
      rintro (hyes | hclosed | hnothing)
      · rw [haction] at hyes
        cases hyes
      · exact not_closed hstatus hopen hclosed
      · exact hsome (hleft.mp hnothing snapshot hnetwork)

theorem needsReview_routed (hends : v.planningEnds s = none) (h : v.answer restores fuel s = .ok result) :
    s.needsReview result = true ↔ v.Objects restores fuel s := by
  obtain ⟨status, hstatus, rfl⟩ := answer_routed hends h
  have hleft : v.NothingLeft restores fuel s ↔ ∀ provider best, v.routeProvider = some provider →
      v.bestRoute provider s.routeId s.memoryResults.head? (s.roadCondition.getD "unknown")
        (s.environmentRisk.getD "elevated") status = some best →
      best.routeId = "" ∧ s.routeId ≠ "" ∧ s.reassignedBreakdown = false := by
    unfold NothingLeft
    rw [hends]
    constructor
    · intro hall provider best hprovider
      exact hall provider status best hprovider hstatus
    · intro hall provider other best hprovider hother
      rw [hstatus] at hother
      cases hother
      exact hall provider best hprovider
  rcases route_ok v s.routeId s.memoryResults (s.roadCondition.getD "unknown")
    (s.environmentRisk.getD "elevated") status with
    ⟨hdeclined, hwhy⟩ | ⟨hopen, provider, best, hprovider, hbest, hrouted⟩
  · refine iff_of_true (needsReview_of_declined hdeclined) ?_
    rcases hwhy with hclosed | hnone
    · exact .inr (.inl ⟨status, hstatus, hclosed⟩)
    · refine .inr (.inr (hleft.mpr fun provider best hprovider hbest => ?_))
      rw [hnone provider hprovider] at hbest
      cases hbest
  · cases haction : s.actionOnly with
    | true => exact iff_of_true (needsReview_of_actionOnly haction) (.inl haction)
    | false =>
      have hobjects : v.Objects restores fuel s ↔
          best.routeId = "" ∧ s.routeId ≠ "" ∧ s.reassignedBreakdown = false := by
        constructor
        · rintro (hyes | hclosed | hnothing)
          · rw [haction] at hyes
            cases hyes
          · exact absurd hclosed (not_closed hstatus hopen)
          · exact hleft.mp hnothing provider best hprovider hbest
        · intro hunnamed
          refine .inr (.inr (hleft.mpr fun other found hother hfound => ?_))
          rw [hprovider] at hother
          cases hother
          rw [hbest] at hfound
          cases hfound
          exact hunnamed
      rw [hobjects]
      by_cases hname : best.routeId = ""
      · cases hreassigned : s.reassignedBreakdown with
        | true =>
          have hno := needsReview_eq_false hrouted.review haction fun _ => by
            rw [GraphState.finalRoute, if_pos hreassigned, hrouted.recommendedRoute]
            exact Option.some_ne_none _
          refine iff_of_false (by rw [hno]; decide) fun hunnamed => ?_
          cases hunnamed.2.2
        | false =>
          have hroute := hrouted.recommendedRoute
          rw [hname] at hroute
          have hnone := GraphState.finalRoute_of_unnamed hreassigned hroute
          rw [GraphState.needsReview, hrouted.review, haction, hnone, hrouted.decision, hname]
          by_cases hcurrent : s.routeId = ""
          · simp [hcurrent]
          · simp [hcurrent, Ne.symm hcurrent]
      · have hfinal := GraphState.finalRoute_of_named haction hrouted.recommendedRoute hname
          ⟨best, hrouted.candidate.1, hrouted.candidate.2, rfl⟩
        have hno := needsReview_eq_false hrouted.review haction fun _ => by
          rw [hfinal]
          exact Option.some_ne_none _
        exact iff_of_false (by rw [hno]; decide) fun hunnamed => hname hunnamed.1

theorem needsReview_iff (h : v.answer restores fuel s = .ok result) :
    s.needsReview result = true ↔ v.Objects restores fuel s := by
  cases hends : v.planningEnds s with
  | some ends => exact needsReview_planned hends h
  | none => exact needsReview_routed hends h

end RoutingService

/-! ### From routing to the audit -/

theorem manualReview_eq {v : RoutingService} {restores : Bool} {fuel : ℕ} {s s' : GraphState}
    {result : RoutingResult} (h : v.answer restores fuel s = .ok result) (hs : RoutingLeaves s result s') :
    s'.dispatchRequest.manualReview = s.needsReview result := by
  show (s'.requiresManualReview.getD false || decide
    (s'.decision.getD .manualReview = .manualReview ∨ s'.decision.getD .manualReview = .noSafeRoute))
      = s.needsReview result
  rw [hs.review, hs.decision]
  cases hneeds : s.needsReview result with
  | true => rfl
  | false =>
    have hreview : result.requiresManualReview = false := by
      cases hresult : result.requiresManualReview with
      | false => rfl
      | true => simp [GraphState.needsReview, hresult] at hneeds
    rcases RoutingService.answer_decides h hreview with hkeep | hreroute
    · simp [hkeep]
    · simp [hreroute]

theorem auditNode_executed (persists : Bool) (s : GraphState) :
    (auditNode persists s).executed = s.executed := by
  unfold auditNode
  split
  · rfl
  · rfl

theorem auditNode_not_approved (persists : Bool) {s : GraphState} (h : s.requiresManualReview = some true) :
    (auditNode persists s).auditStatus ≠ some .approved := by
  have hreview : s.underReview = true := by
    simp [GraphState.underReview, h]
  unfold auditNode
  split
  · intro happroved
    cases happroved
  · intro happroved
    have hstatus : s.evaluate.status = .approved := Option.some.inj happroved
    rw [GraphState.evaluate, if_pos hreview] at hstatus
    cases hstatus

theorem held_dispatched {s : GraphState} {result : DispatchResult} (persists : Bool)
    (h : result.executed = !result.requiresManualReview) :
    (auditNode persists (s.dispatched result)).Held ↔ result.requiresManualReview = true := by
  constructor
  · rintro ⟨hexecuted, -⟩
    rw [auditNode_executed] at hexecuted
    have hresult : result.executed = false := hexecuted
    rw [h] at hresult
    simpa using hresult
  · intro hreview
    refine ⟨?_, auditNode_not_approved persists (congrArg some hreview)⟩
    rw [auditNode_executed]
    show result.executed = false
    rw [h, hreview]
    rfl

/-- **A run keeps a request for a review** exactly when the state that routing sees and the fate of the
dispatch let it survive. -/
theorem review_kept_iff {v : Services} {r : RoutingService} {world : List (CallOutcome × Store)}
    {persists : Bool} {s₀ s₅ s₈ : GraphState} (hrouting : v.routing = some r)
    (hdispatch : v.dispatch = some world) (haudit : v.audit = some persists)
    (hcollected : v.collected s₀ = .ok s₅) (hrun : v.run s₀ = .ok s₈) :
    (v.Warned s₀ s₅ → s₈.Held) ↔
      (v.Warned s₀ s₅ → ReviewKept r v.snapshots.isSome v.fuel world s₅) := by
  refine imp_congr_right fun _ => ?_
  obtain ⟨t₅, s₆, s₇, ht₅, h₆, h₇, rfl⟩ := run_ok.mp hrun
  rw [hcollected] at ht₅
  cases ht₅
  rw [hrouting] at h₆
  rw [hdispatch] at h₇
  rw [haudit]
  show (auditNode persists s₇).Held ↔ _
  obtain ⟨result, hanswer, hleaves⟩ := routing_leaves h₆
  have hfate : ∀ st, s₆.dispatchRequest.execute world = some st →
      ∃ st', s₅.dispatchRequest.execute world = some st' ∧
        CallState.Alike s₆.dispatchRequest s₅.dispatchRequest st st' := fun st hst =>
    execute_alike hleaves.taskId hleaves.candidates hst
  unfold ReviewKept
  rcases dispatch_ok h₇ with ⟨candidate, id, dispatchNo, -, hexecute, rfl⟩ |
    ⟨dispatch, hexecute, rfl⟩ | ⟨hexecute, rfl⟩
  · obtain ⟨st', hst', halike⟩ := hfate _ hexecute
    rw [hst', held_dispatched persists rfl]
    cases halike
    show s₆.dispatchRequest.manualReview = true ↔ _
    rw [manualReview_eq hanswer hleaves]
    exact RoutingService.needsReview_iff hanswer
  · obtain ⟨st', hst', halike⟩ := hfate _ hexecute
    rw [hst', held_dispatched persists rfl]
    cases halike with
    | replayed result result' hstatus =>
      show _ ↔ result'.status = .reviewRequired
      rw [← hstatus]
      exact decide_eq_true_iff
  · obtain ⟨st', hst', halike⟩ := hfate _ hexecute
    rw [hst']
    cases halike
    show (auditNode persists s₆.notReserved).Held ↔ s₅.executed = false
    have hexecuted : (auditNode persists s₆.notReserved).executed = s₅.executed := by
      rw [auditNode_executed]
      show s₆.dispatchResult.any DispatchResultState.executed = _
      rw [hleaves.dispatchResult]
      rfl
    unfold GraphState.Held
    rw [hexecuted]
    exact and_iff_left (auditNode_not_approved persists rfl)

/-! ### A request that is lost -/

/-- The order of a task is assigned to another vehicle than the one that reports. -/
def mismatchedOrder : SandtableOrder where
  cargoWeightKg := some 800
  cargoType := some "GENERAL"
  originNodeId := "N01"
  destinationNodeId := "N06"
  vehicleId := "V-002"
  assignedDriverId := some "D-002"
  vehicleWeightTons := 5
  roadNetworkVersion := 1

def catalogue : RouteProvider where
  candidates :=
    [⟨"xinping-road", "新平路", 10, 20, "low", true, none, 0, []⟩,
      ⟨"national-102", "102国道", 13, 26, "low", true, none, 0, []⟩]
  resolveRouteReference := fun _ => none

theorem unique_task (taskId : String) : ([(⟨taskId, .processing⟩ : TaskRow)].map TaskRow.taskId).Nodup :=
  List.nodup_singleton _

/-- The tables of the dispatcher before the first dispatch of a task. -/
def emptyStore (taskId : String) : Store where
  tasks := ⟨[⟨taskId, .processing⟩], unique_task taskId⟩
  vehicles := .empty
  dispatches := .empty
  evidence := []
  audits := []
  nextId := 1

def catalogueRouting : RoutingService where
  routeProvider := some catalogue
  memoryAdoptionThreshold := 8 / 10
  roadNetwork := none
  hasPathFinder := false
  sha256 := fun text => text

/-- A dispatcher meets nothing in its way. -/
def freeWorld (taskId : String) : List (CallOutcome × Store) :=
  List.replicate 2 (⟨.checked, "DSP-1"⟩, emptyStore taskId)

/-- Services with a route catalogue, a sandtable and a dispatcher. -/
def catalogueServices : Services where
  sandtable := some ⟨fun _ => some mismatchedOrder, fun _ => some mismatchedOrder, fun _ => true⟩
  routing := some catalogueRouting
  dispatch := some (freeWorld "T-1")
  audit := some true
  fuel := 0

/-- Vehicle `V-001` reports heavy rain for an order of `V-002`. -/
def mismatchedTask : GraphState where
  taskId := "T-1"
  orderId := 7
  driverId := "D-001"
  routeId := "xinping-road"
  anomalyType := "WEATHER"
  anomalyDescription := "暴雨"
  vehicleId := some "V-001"
  vehicleStatus := some .normal

/-- Intake asks for a review of the assignment; the dispatch is executed and approved. -/
theorem review_lost : catalogueServices.Configured ∧
    (catalogueServices.received mismatchedTask).requiresManualReview = some true ∧
    ((catalogueServices.run mismatchedTask).toOption.map fun s => (s.executed, s.auditStatus)) =
      some (true, some .approved) := by
  refine ⟨⟨⟨_, rfl, .inl rfl⟩, rfl, rfl⟩, ?_, ?_⟩
  · decide +kernel
  · decide +kernel

/-- The routing node has nothing to object, and so the request does not survive. -/
theorem review_kept_iff_catalogue : ∃ s₅ s₈,
    catalogueServices.collected mismatchedTask = .ok s₅ ∧
    catalogueServices.run mismatchedTask = .ok s₈ ∧ catalogueServices.Warned mismatchedTask s₅ ∧
    ¬ s₈.Held ∧ ¬ ReviewKept catalogueRouting false 0 (freeWorld "T-1") s₅ := by
  have hrun : ((catalogueServices.run mismatchedTask).toOption.map GraphState.executed) = some true := by
    decide +kernel
  have hwarned : (catalogueServices.received mismatchedTask).requiresManualReview = some true := by
    decide +kernel
  obtain ⟨s₈, h₈, hexecuted⟩ := Option.map_eq_some_iff.mp hrun
  rw [toOption_eq_some] at h₈
  obtain ⟨s₅, -, -, h₅, -⟩ := run_ok.mp h₈
  have hnot : ¬ s₈.Held := by
    rintro ⟨hheld, -⟩
    rw [hexecuted] at hheld
    cases hheld
  refine ⟨s₅, s₈, h₅, h₈, .inl hwarned, hnot, fun hkept => hnot ?_⟩
  exact (review_kept_iff rfl rfl rfl h₅ h₈).mpr (fun _ => hkept) (.inl hwarned)

end CountyFlow.Graph
