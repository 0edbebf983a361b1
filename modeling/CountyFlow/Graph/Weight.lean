import CountyFlow.Graph.Accord

/-!
# The weight of the reserved vehicle

The path of a breakdown is planned for the candidate that is ranked first, before the dispatcher knows
which one it gets.
-/

namespace CountyFlow.Graph

open CountyFlow.Lib CountyFlow.Road CountyFlow.Dispatch

def Services.Reserved (v : Services) (s : GraphState) (vehicle : FleetVehicleSnapshot) : Prop :=
  (∃ fleet, v.fleet = some fleet ∧ vehicle ∈ fleet.vehicles) ∧
    s.dispatchText DispatchResultState.targetVehicleId = some vehicle.vehicleId

/-- Every edge of the recommended path is in the road network of the task and carries the vehicle of
the dispatch. -/
def Services.Carries (v : Services) (s : GraphState) : Prop :=
  ∀ vehicle, v.Reserved s vehicle → ∀ edgeId ∈ s.pathEdgeIds,
    ∃ edge ∈ s.roadNetworkEdges, edge.edgeId = edgeId ∧
      vehicle.grossWeightTons ≤ edge.weightLimitTons

/-- The vehicles that a dispatch may name: those of the candidates it may reserve, and that of a dispatch
which the task has already. -/
def GraphState.MayName (s : GraphState) (world : List (CallOutcome × Store)) (vehicleId : String) : Prop :=
  (∃ c, s.dispatchRequest.Reservable (some c) ∧ text c.vehicleId = some vehicleId) ∨
    ∃ met ∈ world, ∃ dispatch, met.2.dispatches.find s.taskId = some dispatch ∧
      text dispatch.targetVehicleId = some vehicleId

/-- No edge of the path has a limit between the weight of the candidate that is ranked first and the weight of
a vehicle that the dispatch may name. -/
def Services.NoneBetween (v : Services) (world : List (CallOutcome × Store)) (s : GraphState) : Prop :=
  ∀ fleet, v.fleet = some fleet → ∀ vehicle ∈ fleet.vehicles, s.MayName world vehicle.vehicleId →
    ∀ weight, s.selectedVehicleGrossWeightTons = some weight →
      ∀ edge ∈ s.roadNetworkEdges, edge.edgeId ∈ s.pathEdgeIds →
        ¬ (weight ≤ edge.weightLimitTons ∧ edge.weightLimitTons < vehicle.grossWeightTons)

def Services.meeting (v : Services) (world : List (CallOutcome × Store)) : Services :=
  { v with dispatch := some world }

/-! ### The weight that is planned for -/

variable {restores : Bool} {fuel : ℕ} {s s' : GraphState}

theorem path_carries_selected {r : RoutingService} {candidates : List VehicleCandidate}
    {selected : VehicleCandidate} (hallotted : Allotted s candidates selected)
    (hpath : s.recommendedPath = none) (h : routingNode (some r) restores fuel s = .ok s') :
    ∀ edgeId ∈ s'.pathEdgeIds, ∃ edge ∈ s'.roadNetworkEdges, edge.edgeId = edgeId ∧
      selected.grossWeightTons ≤ edge.weightLimitTons ∧
        ∀ other ∈ s'.roadNetworkEdges, other.edgeId = edgeId → other = edge := by
  intro edgeId hid
  obtain ⟨result, hanswer, hs'⟩ := routing_ok h
  have hsome : ∃ path, s'.recommendedPath = some path ∧ edgeId ∈ path.edgeIds := by
    unfold GraphState.pathEdgeIds at hid
    cases hs'path : s'.recommendedPath with
    | none =>
      rw [hs'path] at hid
      cases hid
    | some path =>
      rw [hs'path] at hid
      exact ⟨path, rfl, hid⟩
  obtain ⟨found, hfoundPath, hmem⟩ := hsome
  cases hends : r.planningEnds s with
  | none =>
    rw [hends, if_neg (by simp)] at hs'
    rw [hs', recommended_path, hpath] at hfoundPath
    cases hfoundPath
  | some ends =>
    rw [hends, if_pos Option.isSome_some] at hs'
    have hresult : result.recommendedPath = some found := by
      rw [hs'] at hfoundPath
      exact hfoundPath
    obtain ⟨context, status, hcontext, -, hplan⟩ := RoutingService.answer_planned hends hanswer
    rcases RoutingService.plan_ok hplan with ⟨hdeclined, -⟩ | ⟨-, snapshot, path, -, -, hplanned⟩
    · rw [hdeclined.recommendedPath] at hresult
      cases hresult
    · rw [hplanned.recommendedPath] at hresult
      cases hresult
      obtain ⟨objective, hfound⟩ := hplanned.found
      have hweight : context.activeVehicleWeightTons = selected.grossWeightTons := by
        unfold GraphState.planningContext at hcontext
        split at hcontext
        · cases hcontext
        · cases hcontext
          dsimp only
          rw [hallotted.weight]
          rfl
      obtain ⟨edge, -, hedge, hsame, -, -, hlimit⟩ := find_edge hfound hmem
      have hroads : s'.roadNetworkEdges = snapshot.edges := by
        rw [hs']
        exact hplanned.edges
      rw [hroads]
      refine ⟨edge, hedge, hsame, hweight ▸ hlimit, fun other hother hid => ?_⟩
      exact List.inj_on_of_nodup_map snapshot.edgeIds_nodup hother hedge (hid.trans hsame.symm)

/-! ### The run -/

/-- What the last two nodes leave of a plan. -/
structure PlanKept (s s' : GraphState) : Prop where
  recommendedPath : s'.recommendedPath = s.recommendedPath
  roadNetworkEdges : s'.roadNetworkEdges = s.roadNetworkEdges
  selectedWeight : s'.selectedVehicleGrossWeightTons = s.selectedVehicleGrossWeightTons
  capacityState : s'.capacityState = s.capacityState
  identifiedIssue : s'.identifiedIssue = s.identifiedIssue
  decision : s'.decision = s.decision

theorem dispatchNode_kept {service : Option (List (CallOutcome × Store))}
    (h : dispatchNode service s = .ok s') : PlanKept s s' := by
  cases service with
  | none =>
    cases h
    exact ⟨rfl, rfl, rfl, rfl, rfl, rfl⟩
  | some world =>
    rcases dispatch_ok h with ⟨_, _, _, -, -, rfl⟩ | ⟨_, -, rfl⟩ | ⟨-, rfl⟩
    · exact ⟨rfl, rfl, rfl, rfl, rfl, rfl⟩
    · exact ⟨rfl, rfl, rfl, rfl, rfl, rfl⟩
    · exact ⟨rfl, rfl, rfl, rfl, rfl, rfl⟩

theorem auditNode_kept (persists : Bool) (s : GraphState) : PlanKept s (auditNode persists s) := by
  unfold auditNode
  split
  · exact ⟨rfl, rfl, rfl, rfl, rfl, rfl⟩
  · exact ⟨rfl, rfl, rfl, rfl, rfl, rfl⟩

theorem PlanKept.trans {a b c : GraphState} (hab : PlanKept a b) (hbc : PlanKept b c) : PlanKept a c :=
  ⟨hbc.recommendedPath.trans hab.recommendedPath, hbc.roadNetworkEdges.trans hab.roadNetworkEdges,
    hbc.selectedWeight.trans hab.selectedWeight, hbc.capacityState.trans hab.capacityState,
    hbc.identifiedIssue.trans hab.identifiedIssue, hbc.decision.trans hab.decision⟩

theorem decision_of_approved {persists : Bool}
    (h : (auditNode persists s).auditStatus = some .approved) : s.decision ≠ some .manualReview := by
  intro hdecision
  have hreview : s.underReview = true := by simp [GraphState.underReview, hdecision]
  unfold auditNode at h
  split at h
  · cases h
  · have hstatus : s.evaluate.status = .approved := Option.some.inj h
    rw [GraphState.evaluate, if_pos hreview] at hstatus
    cases hstatus

theorem reassigned_of_breakdown {r : RoutingService} (h : routingNode (some r) restores fuel s = .ok s')
    (hissue : s'.identifiedIssue = some "VEHICLE_BREAKDOWN")
    (hdecision : s'.decision ≠ some .manualReview) : s.capacityStatus = some .reassigned := by
  obtain ⟨result, hanswer, hs⟩ := routing_leaves h
  have hneeds : s.needsReview result = false := by
    by_contra hne
    rw [Bool.not_eq_false] at hne
    exact hdecision (by rw [hs.decision, hne]; rfl)
  have haction := (hs.decides hanswer (by rw [hs.review, hneeds])).2.1
  have hcategory : s.issueCategory = .vehicleBreakdown := by
    rw [hs.identifiedIssue, Option.some.injEq] at hissue
    exact IssueCategory.text_eq_breakdown.mp hissue
  have hreassigned : s.reassignedBreakdown = true := by
    simpa [GraphState.actionOnly, hcategory, IssueCategory.nonRoute] using haction
  exact (of_decide_eq_true hreassigned).2

/-- A run about a breakdown: the issue is one, or the vehicle has been replaced. -/
def GraphState.Breakdown (s : GraphState) : Prop :=
  s.identifiedIssue = some "VEHICLE_BREAKDOWN" ∨ s.capacityStatus = some .reassigned

/-- What is known behind the routing of a breakdown: the path is planned for the first candidate. -/
structure PlannedFor (s : GraphState) (candidates : List VehicleCandidate) (selected : VehicleCandidate) :
    Prop where
  allotted : Allotted s candidates selected
  edge : ∀ edgeId ∈ s.pathEdgeIds, ∃ edge ∈ s.roadNetworkEdges, edge.edgeId = edgeId ∧
    selected.grossWeightTons ≤ edge.weightLimitTons ∧
      ∀ other ∈ s.roadNetworkEdges, other.edgeId = edgeId → other = edge

variable {vehicleId : String}

section Approved

variable {v : Services} {r : RoutingService} {persists : Bool} {s₀ s₅ s₆ s₇ s₈ : GraphState}
  {candidates : List VehicleCandidate} {selected : VehicleCandidate} {world : List (CallOutcome × Store)}

/-- An approved breakdown has been planned for the candidate that is ranked first. -/
theorem plannedFor_of_approved (hfresh : s₀.recommendedPath = none) (h₅ : v.collected s₀ = .ok s₅)
    (h₆ : routingNode (some r) v.snapshots.isSome v.fuel s₅ = .ok s₆) (hkept : PlanKept s₆ s₈)
    (hdecision : s₆.decision ≠ some .manualReview) (hbreakdown : s₈.Breakdown) :
    ∃ candidates selected, PlannedFor s₆ candidates selected := by
  obtain ⟨result, -, hs⟩ := routing_leaves h₆
  have hreassigned : s₅.capacityStatus = some .reassigned := by
    rcases hbreakdown with hissue | hstatus
    · exact reassigned_of_breakdown h₆ (hkept.identifiedIssue.symm.trans hissue) hdecision
    · rw [GraphState.capacityStatus, hkept.capacityState, hs.capacityState] at hstatus
      exact hstatus
  obtain ⟨candidates, selected, hallotted⟩ := collected_reassigned h₅ hreassigned
  refine ⟨candidates, selected, hallotted.leaves hs, path_carries_selected hallotted ?_ h₆⟩
  exact (collected_kept h₅).recommendedPath.trans
    ((intakeNode_path v.sandtable v.snapshots s₀).trans hfresh)

/-- The audit asks the same of a new dispatch, whichever candidate it names. -/
theorem approved_of_approved {c c' : Option CandidateState} {id id' : ℕ} {dispatchNo dispatchNo' : String}
    (h : Decided r s₆) (hc : s₆.dispatchRequest.Reservable c) (hc' : s₆.dispatchRequest.Reservable c')
    (happroved : (auditNode persists
      (s₆.dispatched (s₆.dispatchRequest.created c id dispatchNo))).auditStatus =
      some .approved) :
    (auditNode persists (s₆.dispatched (s₆.dispatchRequest.created c' id' dispatchNo'))).auditStatus =
      some .approved := by
  obtain ⟨hrecord, hreview, hstands⟩ := (GraphState.auditNode_approved persists _).mp happroved
  exact (GraphState.auditNode_approved persists _).mpr
    ⟨hrecord, hreview, (h.stands_iff hc').mpr ((h.stands_iff hc).mp hstands)⟩

/-- The path carries a vehicle that no limit keeps off it. -/
theorem PlannedFor.carries (h : PlannedFor s₆ candidates selected) (hkept : PlanKept s₆ s₈)
    (hnone : v.NoneBetween world s₆)
    (hnames : ∀ vehicleId, s₈.dispatchText DispatchResultState.targetVehicleId = some vehicleId →
      s₆.MayName world vehicleId) : v.Carries s₈ := by
  rintro vehicle ⟨⟨fleet, hfleet, hvehicle⟩, hnamed⟩ edgeId hid
  rw [GraphState.pathEdgeIds, hkept.recommendedPath] at hid
  obtain ⟨edge, hedge, rfl, hlimit, -⟩ := h.edge edgeId hid
  refine ⟨edge, hkept.roadNetworkEdges ▸ hedge, rfl, not_lt.mp fun hheavy => ?_⟩
  exact hnone fleet hfleet vehicle hvehicle (hnames _ hnamed) _ h.allotted.selectedWeight edge hedge hid
    ⟨hlimit, hheavy⟩

/-- The dispatch that is created names a candidate that may be reserved. -/
theorem mayName_created {c : Option CandidateState} (hreservable : s₆.dispatchRequest.Reservable c)
    (hnamed : text (c.bind fun c => text c.vehicleId) = some vehicleId) : s₆.MayName world vehicleId := by
  obtain ⟨hnamed, -⟩ := text_eq_some.mp hnamed
  obtain ⟨c, rfl, hid⟩ := Option.bind_eq_some_iff.mp hnamed
  exact .inl ⟨c, hreservable, hid⟩

theorem auditNode_dispatchText (field : DispatchResultState → Option String) :
    (auditNode persists s₇).dispatchText field = s₇.dispatchText field := by
  unfold auditNode
  split <;> rfl

/-- The last two nodes of a run. -/
theorem run_meeting (hrouting : v.routing = some r) (haudit : v.audit = some persists)
    (h₅ : v.collected s₀ = .ok s₅) (h₆ : routingNode (some r) v.snapshots.isSome v.fuel s₅ = .ok s₆) :
    (v.meeting world).run s₀ = .ok s₈ ↔
      ∃ s₇, dispatchNode (some world) s₆ = .ok s₇ ∧ s₈ = auditNode persists s₇ := by
  rw [run_ok]
  have hrun : (v.meeting world).collected s₀ = .ok s₅ := h₅
  have hroute : routingNode (v.meeting world).routing (v.meeting world).snapshots.isSome
      (v.meeting world).fuel s₅ = .ok s₆ := by
    rw [show (v.meeting world).routing = some r from hrouting]
    exact h₆
  have hlast : ∀ s₇, ((v.meeting world).audit.elim s₇ fun persists => auditNode persists s₇) =
      auditNode persists s₇ := by
    intro s₇
    rw [show (v.meeting world).audit = some persists from haudit]
    rfl
  constructor
  · rintro ⟨t₅, t₆, s₇, ht₅, ht₆, h₇, rfl⟩
    rw [hrun] at ht₅
    cases ht₅
    rw [hroute] at ht₆
    cases ht₆
    exact ⟨s₇, h₇, hlast s₇⟩
  · rintro ⟨s₇, h₇, rfl⟩
    exact ⟨s₅, s₆, s₇, hrun, hroute, h₇, (hlast s₇).symm⟩

/-- A run that is approved names a vehicle that it may name. -/
theorem mayName_of_approved (h₇ : dispatchNode (some world) s₆ = .ok s₇)
    (happroved : (auditNode persists s₇).auditStatus = some .approved)
    (hnamed : s₇.dispatchText DispatchResultState.targetVehicleId = some vehicleId) :
    s₆.MayName world vehicleId := by
  rcases dispatch_ok h₇ with ⟨c, id, dispatchNo, hreservable, -, rfl⟩ | ⟨dispatch, hexecute, rfl⟩ | ⟨-, rfl⟩
  · exact mayName_created hreservable hnamed
  · obtain ⟨met, hmet, dispatch', hfind, hresult⟩ := execute_replayed hexecute
    have hsame : dispatch.targetVehicleId = dispatch'.targetVehicleId :=
      congrArg DispatchResult.targetVehicleId hresult
    exact .inr ⟨met, hmet, dispatch', hfind, hsame ▸ hnamed⟩
  · obtain ⟨-, hreview, -⟩ := (GraphState.auditNode_approved persists _).mp happroved
    have hconflict : s₆.notReserved.underReview = true := Bool.or_true _
    rw [hconflict] at hreview
    cases hreview

/-- What an approved breakdown says of the state behind routing. -/
theorem routed_of_approved (hfresh : s₀.recommendedPath = none) (h₅ : v.collected s₀ = .ok s₅)
    (h₆ : routingNode (some r) v.snapshots.isSome v.fuel s₅ = .ok s₆)
    (h₇ : dispatchNode (some world) s₆ = .ok s₇) (hbreakdown : (auditNode persists s₇).Breakdown)
    (happroved : (auditNode persists s₇).auditStatus = some .approved) :
    Decided r s₆ ∧ ∃ candidates selected, PlannedFor s₆ candidates selected := by
  have hdecision : s₆.decision ≠ some .manualReview := by
    rw [← (dispatchNode_kept h₇).decision]
    exact decision_of_approved happroved
  obtain ⟨result, -, hs⟩ := routing_leaves h₆
  have hneeds : s₅.needsReview result = false := by
    by_contra hne
    rw [Bool.not_eq_false] at hne
    exact hdecision (by rw [hs.decision, hne]; rfl)
  exact ⟨decided_of_routing h₅ h₆ (by rw [hs.review, hneeds]), plannedFor_of_approved hfresh h₅ h₆
    ((dispatchNode_kept h₇).trans (auditNode_kept persists s₇)) hdecision hbreakdown⟩

/-- A dispatch that is created names a candidate that may be reserved, or none. -/
theorem created_of_creates (hcreates : s₆.creates world = true) (h₇ : dispatchNode (some world) s₆ = .ok s₇) :
    ∃ c id dispatchNo, s₆.dispatchRequest.Reservable c ∧
      s₇ = s₆.dispatched (s₆.dispatchRequest.created c id dispatchNo) := by
  obtain ⟨result, hexecute⟩ := creates_iff.mp hcreates
  rcases dispatch_ok h₇ with ⟨c, id, dispatchNo, hreservable, -, rfl⟩ | ⟨dispatch, hother, -⟩ | ⟨hother, -⟩
  · exact ⟨c, id, dispatchNo, hreservable, rfl⟩
  · rw [hexecute] at hother
    cases hother
  · rw [hexecute] at hother
    cases hother

/-- Where a limit lies between the candidates' weights, a race ends with the heavy one on the path. -/
theorem not_carries_of_between (h : Decided r s₆) (hplanned : PlannedFor s₆ candidates selected)
    {c₀ : Option CandidateState} {id₀ : ℕ} {dispatchNo₀ : String} (hc₀ : s₆.dispatchRequest.Reservable c₀)
    (happroved : (auditNode persists
      (s₆.dispatched (s₆.dispatchRequest.created c₀ id₀ dispatchNo₀))).auditStatus =
      some .approved) (hbetween : ¬ v.NoneBetween [] s₆) :
    ∃ world s₇, s₆.creates world = true ∧ dispatchNode (some world) s₆ = .ok s₇ ∧
      (auditNode persists s₇).auditStatus = some .approved ∧ ¬ v.Carries (auditNode persists s₇) := by
  unfold Services.NoneBetween at hbetween
  push Not at hbetween
  obtain ⟨fleet, hfleet, vehicle, hvehicle, hname, weight, -, edge, hedge, hid, -, hheavy⟩ := hbetween
  obtain ⟨c, hc, hcid⟩ : ∃ c, s₆.dispatchRequest.Reservable (some c) ∧
      text c.vehicleId = some vehicle.vehicleId := by
    refine hname.resolve_right ?_
    rintro ⟨met, hmet, -⟩
    cases hmet
  have hdistinct : (s₆.dispatchRequest.candidateVehicles.map CandidateState.vehicleId).Nodup := by
    show (s₆.candidateVehicles.map CandidateState.vehicleId).Nodup
    rw [hplanned.allotted.states, List.map_map]
    have hnodup := hplanned.allotted.nodup.map (Option.some_injective String)
    rw [List.map_map] at hnodup
    exact hnodup
  obtain ⟨world, id, dispatchNo, hexecute⟩ := exists_reserving hc hdistinct
  refine ⟨world, s₆.dispatched (s₆.dispatchRequest.created (some c) id dispatchNo),
    creates_iff.mpr ⟨_, hexecute⟩, ?_, approved_of_approved h hc₀ hc happroved, fun hcarries => ?_⟩
  · unfold dispatchNode
    dsimp only
    rw [hexecute]
  · have hkept := auditNode_kept persists (s₆.dispatched (s₆.dispatchRequest.created (some c) id dispatchNo))
    have hreserved : v.Reserved
        (auditNode persists (s₆.dispatched (s₆.dispatchRequest.created (some c) id dispatchNo))) vehicle := by
      refine ⟨⟨fleet, hfleet, hvehicle⟩, ?_⟩
      rw [auditNode_dispatchText]
      show text (text c.vehicleId) = some vehicle.vehicleId
      rw [hcid]
      exact text_some (text_eq_some.mp hcid).2
    obtain ⟨planned, -, -, -, honly⟩ := hplanned.edge _ hid
    obtain ⟨other, hother, hsame, hlimit⟩ := hcarries vehicle hreserved edge.edgeId (by
      rw [GraphState.pathEdgeIds, hkept.recommendedPath]
      exact hid)
    rw [hkept.roadNetworkEdges] at hother
    rw [honly other hother hsame, ← honly edge hedge rfl] at hlimit
    exact absurd hlimit (not_le.mpr hheavy)

/-- **The path carries the reserved vehicle** of an approved breakdown, if no limit on it lies between the
weight of the candidate that is ranked first and that of a vehicle which the dispatch may name.  Where a new
dispatch can be approved at all, the path carries the vehicle of every new dispatch, whichever candidate the
races leave, exactly if no limit lies so between the candidates. -/
theorem reserved_vehicle_carried (hrouting : v.routing = some r) (haudit : v.audit = some persists)
    (hfresh : s₀.recommendedPath = none) (h₅ : v.collected s₀ = .ok s₅)
    (h₆ : routingNode (some r) v.snapshots.isSome v.fuel s₅ = .ok s₆) :
    (∀ world s₈, (v.meeting world).run s₀ = .ok s₈ → s₈.Breakdown → s₈.auditStatus = some .approved →
      v.NoneBetween world s₆ → v.Carries s₈) ∧
    ((∃ world s₈, s₆.creates world = true ∧ (v.meeting world).run s₀ = .ok s₈ ∧ s₈.Breakdown ∧
        s₈.auditStatus = some .approved) →
      ((∀ world s₈, s₆.creates world = true → (v.meeting world).run s₀ = .ok s₈ → s₈.Breakdown →
        s₈.auditStatus = some .approved → v.Carries s₈) ↔ v.NoneBetween [] s₆)) := by
  simp only [run_meeting hrouting haudit h₅ h₆]
  constructor
  · rintro world s₈ ⟨s₇, h₇, rfl⟩ hbreakdown happroved hnone
    obtain ⟨-, candidates, selected, hplanned⟩ := routed_of_approved hfresh h₅ h₆ h₇ hbreakdown happroved
    refine hplanned.carries ((dispatchNode_kept h₇).trans (auditNode_kept persists s₇)) hnone
      fun vehicleId hnamed => ?_
    rw [auditNode_dispatchText] at hnamed
    exact mayName_of_approved h₇ happroved hnamed
  · rintro ⟨world₀, s₈, hcreates₀, ⟨s₇, h₇, rfl⟩, hbreakdown, happroved⟩
    obtain ⟨hdecided, candidates, selected, hplanned⟩ :=
      routed_of_approved hfresh h₅ h₆ h₇ hbreakdown happroved
    have hkept₀ := (dispatchNode_kept h₇).trans (auditNode_kept persists s₇)
    constructor
    · intro hall
      by_contra hbetween
      obtain ⟨c₀, id₀, dispatchNo₀, hc₀, rfl⟩ := created_of_creates hcreates₀ h₇
      obtain ⟨world, t₇, hcreates, ht₇, happroved', hnot⟩ :=
        not_carries_of_between hdecided hplanned hc₀ happroved hbetween
      have hkept := (dispatchNode_kept ht₇).trans (auditNode_kept persists t₇)
      refine hnot (hall world _ hcreates ⟨t₇, ht₇, rfl⟩ ?_ happroved')
      unfold GraphState.Breakdown GraphState.capacityStatus at hbreakdown ⊢
      rw [hkept₀.identifiedIssue, hkept₀.capacityState] at hbreakdown
      rw [hkept.identifiedIssue, hkept.capacityState]
      exact hbreakdown
    · rintro hnone world s₈ hcreates ⟨t₇, ht₇, rfl⟩ - happroved'
      obtain ⟨c, id, dispatchNo, hc, rfl⟩ := created_of_creates hcreates ht₇
      refine hplanned.carries ((dispatchNode_kept ht₇).trans (auditNode_kept persists _)) hnone
        fun vehicleId hnamed => ?_
      rw [auditNode_dispatchText] at hnamed
      exact mayName_created hc hnamed

end Approved

/-! ### The first and the second candidate -/

/-- Two roads from the origin to the destination; the short one carries light vehicles. -/
def twoRoads : RoadNetworkSnapshot where
  version := 1
  nodes := ["N01", "N06"]
  edges :=
    [⟨"E01", "N01", "N06", 10, 20, .low, .open, 1, 5, true⟩,
      ⟨"E02", "N01", "N06", 15, 30, .low, .open, 1, 10, true⟩]
  edgeIds_nodup := by decide

/-- A light and a heavy vehicle at the origin. -/
def mixedFleet : FleetAllocationService where
  vehicles :=
    [⟨"V-005", "TRUCK", 2000, 0, "GENERAL", 2, "AVAILABLE", "N01", some ⟨"D-005", "B2", "ON_DUTY"⟩⟩,
      ⟨"V-006", "TRUCK", 5000, 0, "GENERAL", 8, "AVAILABLE", "N01", some ⟨"D-006", "B2", "ON_DUTY"⟩⟩]
  network := twoRoads
  vehicleIds_nodup := by decide

/-- The tables of the dispatcher, with the status of the light vehicle. -/
def fleetStore (status : VehicleOperationalStatus) : Store :=
  { emptyStore "T-1" with
    vehicles := ⟨[⟨"V-005", status, 1⟩, ⟨"V-006", .available, 1⟩], by simp⟩ }

/-- Services that replace a vehicle; `steps` is the number of steps the dispatcher takes. -/
def fleetServices (status : VehicleOperationalStatus) (steps : ℕ) : Services where
  sandtable := some ⟨fun _ => some { mismatchedOrder with vehicleWeightTons := 6 },
    fun _ => some { mismatchedOrder with vehicleWeightTons := 6 }, fun _ => true⟩
  snapshots := some twoRoads
  fleet := some mixedFleet
  routing := some {
    routeProvider := none
    memoryAdoptionThreshold := 8 / 10
    roadNetwork := some twoRoads
    hasPathFinder := true
    sha256 := fun _ => "e7e7dd241b31082d328fe29439a320dac14696e5f2b7c9f42c745ba274555d8b" }
  dispatch := some (List.replicate steps (⟨.checked, "DSP-1"⟩, fleetStore status))
  audit := some true
  fuel := 8

/-- The vehicle of the order has broken down. -/
def brokenTask : GraphState :=
  { mismatchedTask with
    anomalyType := "VEHICLE_BREAKDOWN"
    anomalyDescription := "发动机故障"
    vehicleId := some "V-002"
    vehicleStatus := some .broken }

/-- The fleet, with a vehicle of 4 t in the place of the heavy one. -/
def lightFleet : FleetAllocationService where
  vehicles := mixedFleet.vehicles.map fun vehicle =>
    { vehicle with grossWeightTons := min vehicle.grossWeightTons 4 }
  network := twoRoads
  vehicleIds_nodup := by decide

theorem twoRoads_limit {edge : RoadEdgeSnapshot} (h : edge ∈ twoRoads.edges) (hid : edge.edgeId = "E01") :
    edge.weightLimitTons = 5 := by
  have hall : ∀ other ∈ twoRoads.edges, other.edgeId = "E01" → other.weightLimitTons = 5 := by decide
  exact hall edge h hid

/-- The lightest vehicle is lost to another task, and the light road carries the one of 4 t. -/
theorem reserved_vehicle_carried_second : ∃ s₈,
    { fleetServices .reserved 5 with fleet := some lightFleet }.run brokenTask = .ok s₈ ∧
    s₈.dispatchText DispatchResultState.targetVehicleId = some "V-006" ∧ s₈.pathEdgeIds = ["E01"] ∧
    { fleetServices .reserved 5 with fleet := some lightFleet }.Carries s₈ := by
  generalize hv : { fleetServices .reserved 5 with fleet := some lightFleet } = v
  have hrun : (v.stages brokenTask).toOption.map (fun stages =>
      (stages.2.1.roadNetworkEdges, stages.2.1.pathEdgeIds, (auditNode true stages.2.2).auditStatus,
        (auditNode true stages.2.2).identifiedIssue,
        (auditNode true stages.2.2).dispatchText DispatchResultState.targetVehicleId)) =
      some (twoRoads.edges, ["E01"], some .approved, some "VEHICLE_BREAKDOWN", some "V-006") := by
    rw [← hv]
    decide +kernel
  obtain ⟨⟨s₅, s₆, s₇⟩, hstages, hrun⟩ := Option.map_eq_some_iff.mp hrun
  rw [toOption_eq_some] at hstages
  simp only [Prod.mk.injEq] at hrun
  obtain ⟨hedges, hpath, happroved, hissue, htarget⟩ := hrun
  obtain ⟨h₅, h₆, h₇⟩ := stages_ok hstages
  subst hv
  have h₈ := run_ok.mpr ⟨s₅, s₆, s₇, h₅, h₆, h₇, rfl⟩
  refine ⟨auditNode true s₇, h₈, htarget, ?_, (reserved_vehicle_carried rfl rfl rfl h₅ h₆).1
    (List.replicate 5 (⟨.checked, "DSP-1"⟩, fleetStore .reserved)) _ h₈ (.inl hissue) happroved ?_⟩
  · have hkept := (dispatchNode_kept h₇).trans (auditNode_kept true s₇)
    rw [GraphState.pathEdgeIds, hkept.recommendedPath]
    exact hpath
  · rintro fleet hfleet vehicle hvehicle - weight - edge hedge hid ⟨-, hheavy⟩
    cases hfleet
    have hlight : ∀ other ∈ lightFleet.vehicles, other.grossWeightTons ≤ 4 := by decide
    rw [hedges] at hedge
    rw [hpath, List.mem_singleton] at hid
    rw [twoRoads_limit hedge hid] at hheavy
    exact absurd (hheavy.trans_le (hlight vehicle hvehicle)) (by decide)

/-- The light vehicle is lost to another task, and one of 8 t is sent over the light road. -/
theorem heavy_vehicle_on_light_road : ∃ s₈, (fleetServices .reserved 5).run brokenTask = .ok s₈ ∧
    s₈.Breakdown ∧ s₈.auditStatus = some .approved ∧ s₈.pathEdgeIds = ["E01"] ∧
    ¬ (fleetServices .reserved 5).Carries s₈ := by
  have hrun : (((fleetServices .reserved 5).run brokenTask).toOption.map fun s =>
      (s.auditStatus, s.identifiedIssue, s.dispatchText DispatchResultState.targetVehicleId,
        s.roadNetworkEdges, s.pathEdgeIds)) =
      some (some .approved, some "VEHICLE_BREAKDOWN", some "V-006", twoRoads.edges, ["E01"]) := by
    decide +kernel
  obtain ⟨s₈, h₈, hrun⟩ := Option.map_eq_some_iff.mp hrun
  rw [toOption_eq_some] at h₈
  simp only [Prod.mk.injEq] at hrun
  obtain ⟨happroved, hissue, htarget, hedges, hpath⟩ := hrun
  refine ⟨s₈, h₈, .inl hissue, happroved, hpath, fun hcarries => ?_⟩
  have hheavy : ∃ vehicle ∈ mixedFleet.vehicles, vehicle.vehicleId = "V-006" ∧
      vehicle.grossWeightTons = 8 := by decide
  obtain ⟨vehicle, hvehicle, hid, hgross⟩ := hheavy
  obtain ⟨edge, hedge, hsame, hlimit⟩ := hcarries vehicle
    ⟨⟨mixedFleet, rfl, hvehicle⟩, by rw [htarget, hid]⟩ "E01" (by rw [hpath]; decide)
  rw [hedges] at hedge
  rw [hgross, twoRoads_limit hedge hsame] at hlimit
  exact absurd hlimit (by decide)

end CountyFlow.Graph
