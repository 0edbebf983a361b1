import CountyFlow.Graph.Allotment
import CountyFlow.Graph.Review

/-!
# Planner, dispatcher and auditor

The auditor derives again what the planner and the dispatcher have worked out.
-/

namespace CountyFlow.Graph

open CountyFlow.Lib CountyFlow.Road CountyFlow.Dispatch

/-! ### The checks -/

namespace GraphState

theorem verdict_status (done : AuditChecks) (checks : List Check) :
    (verdict done checks).status = .rejected ↔
      ∃ check ∈ checks, check.applies = true ∧ check.passes = false := by
  induction checks generalizing done with
  | nil => exact ⟨fun h => (by cases h), fun ⟨_, h, _⟩ => (by cases h)⟩
  | cons check rest ih =>
    rw [List.exists_mem_cons_iff]
    unfold verdict
    cases happlies : check.applies with
    | false =>
      rw [if_neg Bool.false_ne_true, ih]
      simp
    | true =>
      rw [if_pos rfl]
      cases hpasses : check.passes with
      | false => simp
      | true =>
        dsimp only
        rw [if_pos rfl, ih]
        simp

theorem evaluate_status (s : GraphState) :
    s.evaluate.status = .rejected ↔ s.underReview = false ∧
      ∃ check ∈ s.checks, check.applies = true ∧ check.passes = false := by
  unfold evaluate
  cases s.underReview with
  | true =>
    rw [if_pos rfl]
    exact ⟨fun h => (by cases h), fun h => (by cases h.1)⟩
  | false =>
    rw [if_neg Bool.false_ne_true, verdict_status]
    exact (and_iff_right rfl).symm

/-- The checks of the audit, as what they ask. -/
structure Stands (s : GraphState) : Prop where
  breakdown : s.issue = some "VEHICLE_BREAKDOWN" →
    s.vehicleAssignment = true ∧ s.capacityConstraint = true
  road : s.issue = some "ROAD_BLOCKED" ∨ s.blockedEdgeIds ≠ [] →
    s.routeConnectivity = true ∧ s.blockedEdgeExclusion = true
  safe : s.decision = some .noSafeRoute → s.executed = false
  reroute : s.decision = some .reroute → text s.recommendedRoute ≠ none ∧ s.executed = true ∧
    s.targetRouteId = text s.recommendedRoute
  keep : s.decision = some .keepRoute → s.executed = true ∧
    s.targetRouteId = text (some s.routeId)
  memory : s.memoryAdopted = some true → s.memoryConsistency = true
  fallback : s.fallbackUsed = some true → (text s.fallbackReason).isSome = true

theorem stands_iff (s : GraphState) :
    s.Stands ↔ ∀ check ∈ s.checks, check.applies = true → check.passes = true := by
  constructor
  · intro h
    simp only [checks, List.forall_mem_cons, decide_eq_true_iff, Bool.and_eq_true]
    refine ⟨fun hissue => (h.breakdown hissue).1, fun hissue => (h.breakdown hissue).2,
      fun hroad => (h.road hroad).1, fun hroad => (h.road hroad).2, ?_, h.reroute, h.keep, h.memory,
      h.fallback, fun _ hnil => (by cases hnil)⟩
    rintro ⟨hdecision, hexecuted⟩
    rw [h.safe hdecision] at hexecuted
    exact hexecuted
  · intro h
    simp only [checks, List.forall_mem_cons, decide_eq_true_iff, Bool.and_eq_true] at h
    obtain ⟨hassignment, hcapacity, hconnected, hblocked, hsafe, hreroute, hkeep, hmemory,
      hfallback, -⟩ := h
    refine ⟨fun hissue => ⟨hassignment hissue, hcapacity hissue⟩,
      fun hroad => ⟨hconnected hroad, hblocked hroad⟩, fun hdecision => ?_, hreroute, hkeep, hmemory,
      hfallback⟩
    by_contra hexecuted
    exact Bool.false_ne_true (hsafe ⟨hdecision, Bool.not_eq_false _ ▸ hexecuted⟩)

theorem evaluate_rejected (s : GraphState) :
    s.evaluate.status = .rejected ↔ s.underReview = false ∧ ¬ s.Stands := by
  rw [evaluate_status, stands_iff]
  refine and_congr_right fun _ => ?_
  simp only [not_forall, exists_prop, Bool.not_eq_true]

theorem verdict_approved (done : AuditChecks) (checks : List Check) :
    (verdict done checks).status = .approved ↔ (verdict done checks).status ≠ .rejected := by
  induction checks generalizing done with
  | nil => exact iff_of_true rfl fun h => by cases h
  | cons check rest ih =>
    unfold verdict
    split
    · split
      · exact ih _
      · exact iff_of_false (fun h => by cases h) fun h => h rfl
    · exact ih _

/-- A dispatch is approved when its record is written, nobody asked for a review and it stands the checks. -/
theorem auditNode_approved (persists : Bool) (s : GraphState) :
    (auditNode persists s).auditStatus = some .approved ↔
      s.recordFails persists = false ∧ s.underReview = false ∧ s.Stands := by
  unfold auditNode
  split
  · rename_i hrecord
    exact iff_of_false (fun h => by cases h) fun h => by
      rw [hrecord] at h
      cases h.1
  · rename_i hrecord
    show some s.evaluate.status = some .approved ↔ _
    rw [Option.some.injEq, and_iff_right (Bool.not_eq_true _ ▸ hrecord)]
    have hrejected := s.evaluate_rejected
    unfold evaluate at hrejected ⊢
    cases hreview : s.underReview with
    | true =>
      rw [if_pos rfl]
      exact iff_of_false (fun h => by cases h) fun h => by cases h.1
    | false =>
      rw [hreview, if_neg Bool.false_ne_true, and_iff_right rfl] at hrejected
      rw [if_neg Bool.false_ne_true, verdict_approved, ne_eq, hrejected, not_not, and_iff_right rfl]

end GraphState

/-! ### Paths -/

section Paths

variable {snapshot : RoadNetworkSnapshot} {vehicleWeightTons : ℚ} {excludedEdgeIds nodeIds edgeIds :
  List String} {a b : String}

theorem roadEdge_of_mem {edge : RoadEdgeSnapshot} (h : edge ∈ snapshot.edges)
    (hid : edge.edgeId ≠ "") : roadEdge snapshot.edges edge.edgeId = some edge := by
  unfold roadEdge
  rw [if_neg hid]
  have hnodup : (snapshot.edges.reverse.map RoadEdgeSnapshot.edgeId).Nodup := by
    rw [List.map_reverse, List.nodup_reverse]
    exact snapshot.edgeIds_nodup
  exact Table.find_of_mem (t := ⟨_, hnodup⟩) (List.mem_reverse.mpr h)

theorem connects_iff {edgeId x y : String} {index : ℕ} (hx : nodeIds[index]? = some x)
    (hy : nodeIds[index + 1]? = some y) (h : Passable snapshot vehicleWeightTons excludedEdgeIds x edgeId y) :
    connects nodeIds snapshot.edges edgeId index = true ↔ edgeId ≠ "" ∧ x ≠ "" ∧ y ≠ "" := by
  obtain ⟨edge, hmem, rfl, -, hjoins⟩ := h
  unfold connects
  by_cases hid : edge.edgeId = ""
  · rw [roadEdge, if_pos hid]
    exact iff_of_false Bool.false_ne_true fun h => h.1 hid
  · rw [roadEdge_of_mem hmem hid, hx, hy]
    simp only [decide_eq_true_iff, Prod.mk.injEq, text_eq_some, Option.some.injEq]
    unfold RoadEdgeSnapshot.Joins at hjoins
    constructor
    · rintro (⟨⟨-, hfrom⟩, -, hto⟩ | ⟨-, ⟨-, hto⟩, -, hfrom⟩)
      · exact ⟨hid, hfrom, hto⟩
      · exact ⟨hid, hto, hfrom⟩
    · rintro ⟨-, hfrom, hto⟩
      rcases hjoins with ⟨rfl, rfl⟩ | ⟨hboth, rfl, rfl⟩
      · exact .inl ⟨⟨rfl, hfrom⟩, rfl, hto⟩
      · exact .inr ⟨hboth, ⟨rfl, hfrom⟩, rfl, hto⟩

theorem pathConnects_iff
    (h : Walk (Passable snapshot vehicleWeightTons excludedEdgeIds) a nodeIds edgeIds b) :
    pathConnects nodeIds edgeIds snapshot.edges = true ↔
      edgeIds ≠ [] ∧ "" ∉ nodeIds ∧ "" ∉ edgeIds := by
  have hlength := h.length
  have hconnects : ∀ i (hi : i < edgeIds.length),
      (connects nodeIds snapshot.edges edgeIds[i] i = true ↔
        edgeIds[i] ≠ "" ∧ nodeIds[i] ≠ "" ∧ nodeIds[i + 1] ≠ "") := by
    intro i hi
    obtain ⟨x, y, hx, hy, hxy⟩ := h.get (List.getElem?_eq_getElem hi)
    rw [connects_iff hx hy hxy]
    rw [List.getElem?_eq_getElem (by omega), Option.some.injEq] at hx hy
    rw [hx, hy]
  unfold pathConnects
  simp only [Bool.and_eq_true, Bool.not_eq_true', List.isEmpty_eq_false_iff, decide_eq_true_iff,
    List.all_eq_true]
  constructor
  · rintro ⟨⟨hne, -⟩, hall⟩
    have hedge : ∀ i (hi : i < edgeIds.length),
        edgeIds[i] ≠ "" ∧ nodeIds[i] ≠ "" ∧ nodeIds[i + 1] ≠ "" := fun i hi =>
      (hconnects i hi).mp (hall (edgeIds[i], i) (List.mk_mem_zipIdx_iff_getElem?.mpr
        (List.getElem?_eq_getElem hi)))
    refine ⟨hne, fun hmem => ?_, fun hmem => ?_⟩
    · obtain ⟨i, hi, hempty⟩ := List.mem_iff_getElem.mp hmem
      by_cases hlast : i < edgeIds.length
      · exact (hedge i hlast).2.1 hempty
      · have hpos : 0 < edgeIds.length := List.length_pos_iff.mpr hne
        have hi' : i = edgeIds.length - 1 + 1 := by omega
        subst hi'
        exact (hedge (edgeIds.length - 1) (by omega)).2.2 hempty
    · obtain ⟨i, hi, hempty⟩ := List.mem_iff_getElem.mp hmem
      exact (hedge i hi).1 hempty
  · rintro ⟨hne, hnodes, hedges⟩
    refine ⟨⟨hne, hlength⟩, fun entry hentry => ?_⟩
    obtain ⟨edgeId, i⟩ := entry
    obtain ⟨hi, rfl⟩ := List.getElem?_eq_some_iff.mp (List.mk_mem_zipIdx_iff_getElem?.mp hentry)
    refine (hconnects i hi).mpr ⟨?_, ?_, ?_⟩
    · exact fun hempty => hedges (hempty ▸ List.getElem_mem hi)
    · exact fun hempty => hnodes (hempty ▸ List.getElem_mem (by omega))
    · exact fun hempty => hnodes (hempty ▸ List.getElem_mem (by omega))

theorem pathEdgesAreOpen_iff (hedges : ∀ edgeId ∈ edgeIds, ∃ edge ∈ snapshot.edges, edge.edgeId = edgeId) :
    pathEdgesAreOpen edgeIds snapshot.edges = true ↔
      edgeIds ≠ [] ∧ "" ∉ edgeIds ∧
        ∀ edge ∈ snapshot.edges, edge.edgeId ∈ edgeIds → EdgeAllowed edge := by
  unfold pathEdgesAreOpen
  simp only [Bool.and_eq_true, Bool.not_eq_true', List.isEmpty_eq_false_iff, List.all_eq_true]
  refine and_congr_right fun _ => ?_
  constructor
  · intro hall
    have hname : "" ∉ edgeIds := by
      intro hempty
      have hopen := hall "" hempty
      rw [roadEdge, if_pos rfl] at hopen
      cases hopen
    refine ⟨hname, fun edge hmem hid => ?_⟩
    have hopen := hall edge.edgeId hid
    rw [roadEdge_of_mem hmem fun hempty => hname (hempty ▸ hid)] at hopen
    exact of_decide_eq_true hopen
  · rintro ⟨hname, hallowed⟩ edgeId hid
    obtain ⟨edge, hmem, rfl⟩ := hedges edgeId hid
    rw [roadEdge_of_mem hmem fun hempty => hname (hempty ▸ hid)]
    exact decide_eq_true (hallowed edge hmem hid)

end Paths

/-! ### What the state behind routing has to be -/

/-- The recommended path stands the auditor's checks of a road: a path of the plan has an edge, no name
is missing on it, and the auditor allows the status of its edges; without a plan there is at most a
path from before, and the checks are what they are. -/
def Travels (r : RoutingService) (s : GraphState) : Prop :=
  if (r.planningEnds s).isSome then
    s.pathEdgeIds ≠ [] ∧ "" ∉ s.pathNodeIds ∧ "" ∉ s.pathEdgeIds ∧
      ∀ edge ∈ s.roadNetworkEdges, edge.edgeId ∈ s.pathEdgeIds → EdgeAllowed edge
  else s.routeConnectivity = true ∧ s.blockedEdgeExclusion = true

/-- **The state behind routing stands the audit** once its dispatch is created. -/
structure Auditable (r : RoutingService) (s : GraphState) : Prop where
  keep : s.decision = some .keepRoute →
    text s.recommendedRoute = none ∨ s.recommendedRoute = some s.routeId
  reroute : s.decision = some .reroute → text s.recommendedRoute ≠ none
  breakdown : s.issueCategory = .vehicleBreakdown →
    text s.vehicleId ≠ none ∧ s.cargoWeightKg ≠ none
  road : s.issueCategory = .roadBlocked ∨ s.blockedEdgeIds ≠ [] → Travels r s
  memory : s.memoryAdopted = some true → text s.adoptedMemoryId ≠ none
  fallback : s.fallbackUsed = some true → text s.fallbackReason ≠ none

/-! ### A vehicle that has been reassigned -/

variable {result : RoutingResult} {candidates : List VehicleCandidate} {selected : VehicleCandidate}

theorem Allotted.leaves {s s' : GraphState} (h : Allotted s candidates selected)
    (hs : RoutingLeaves s result s') : Allotted s' candidates selected :=
  ⟨hs.candidates.trans h.states, h.nodup, by rw [hs.request]; exact h.suits, h.head, h.eligible,
    hs.activeVehicleWeightTons.trans h.weight, hs.selectedWeight.trans h.selectedWeight⟩

theorem Allotted.reserved {s : GraphState} (h : Allotted s candidates selected)
    {candidate : Option CandidateState} (hreservable : s.dispatchRequest.Reservable candidate) :
    ∃ c ∈ candidates, c.eligible = true ∧ candidate = some c.toState ∧ c.vehicleId ≠ "" ∧
      ∃ driver, c.driverId = some driver ∧ driver ≠ "" := by
  obtain ⟨hmem, htexts⟩ := hreservable
  have hselected : selected ∈ candidates := List.mem_of_mem_head? h.head
  have hranked : s.dispatchRequest.rankedEligibleCandidates =
      (candidates.filter fun c => c.eligible).map VehicleCandidate.toState := by
    show s.candidateVehicles.filter (fun candidate => candidate.eligible) = _
    rw [h.states, List.filter_map]
    rfl
  cases candidate with
  | none =>
    refine absurd hmem (none_notMem_attempts ?_)
    rw [hranked]
    exact List.ne_nil_of_mem (List.mem_map_of_mem (List.mem_filter.mpr ⟨hselected, h.eligible⟩))
  | some state =>
    have hstate := List.mem_of_mem_take (mem_attempts hmem)
    rw [hranked] at hstate
    obtain ⟨c, hc, rfl⟩ := List.mem_map.mp hstate
    obtain ⟨hcandidate, heligible⟩ := List.mem_filter.mp hc
    obtain ⟨hvehicle, hdriver⟩ := htexts _ rfl
    obtain ⟨id, hid⟩ := Option.ne_none_iff_exists'.mp hvehicle
    obtain ⟨driver, hsome⟩ := Option.ne_none_iff_exists'.mp hdriver
    obtain ⟨heq, hne⟩ := text_eq_some.mp hid
    cases heq
    obtain ⟨hdriverId, hdriverNe⟩ := text_eq_some.mp hsome
    exact ⟨c, hcandidate, heligible, rfl, hne, driver, hdriverId, hdriverNe⟩

theorem Allotted.find_candidate {s : GraphState} (h : Allotted s candidates selected) {c : VehicleCandidate}
    (hc : c ∈ candidates) (hne : c.vehicleId ≠ "") :
    (s.candidateVehicles.find? fun candidate => text candidate.vehicleId = some c.vehicleId) =
      some c.toState := by
  have hsame : ((fun candidate : CandidateState =>
      decide (text candidate.vehicleId = some c.vehicleId)) ∘ VehicleCandidate.toState) =
      fun other => decide (other.vehicleId = c.vehicleId) := by
    funext other
    show decide (text (some other.vehicleId) = some c.vehicleId) = _
    rw [decide_eq_decide, text_eq_some, Option.some.injEq]
    exact and_iff_left hne
  rw [h.states, List.find?_map, hsame]
  exact congrArg (Option.map VehicleCandidate.toState)
    (Table.find_of_mem (t := ⟨candidates, h.nodup⟩) hc)

theorem original_eq (s : GraphState) (candidate : Option CandidateState) (id : ℕ) (dispatchNo : String) :
    ((s.dispatched (s.dispatchRequest.created candidate id dispatchNo)).dispatchText
      DispatchResultState.originalVehicleId <|> text s.vehicleId) = text s.vehicleId := by
  show (text (if s.originalVehicleWeightTons.isSome then s.vehicleId else none) <|>
    text s.vehicleId) = text s.vehicleId
  split
  · cases text s.vehicleId <;> rfl
  · rfl

/-- Behind an allotment the audit asks no more than the order's vehicle and cargo. -/
theorem Allotted.assignment {s : GraphState} (h : Allotted s candidates selected)
    {candidate : Option CandidateState} (hreservable : s.dispatchRequest.Reservable candidate) (id : ℕ)
    (dispatchNo : String) :
    ((s.dispatched (s.dispatchRequest.created candidate id dispatchNo)).vehicleAssignment = true ∧
      (s.dispatched (s.dispatchRequest.created candidate id dispatchNo)).capacityConstraint = true) ↔
    text s.vehicleId ≠ none ∧ s.cargoWeightKg ≠ none := by
  obtain ⟨c, hc, heligible, rfl, hne, driver, hdriver, hdriverNe⟩ := h.reserved hreservable
  have hsuits := h.suits c hc heligible
  generalize hs' : s.dispatched (s.dispatchRequest.created (some c.toState) id dispatchNo) = s'
  have hvehicleText : text c.toState.vehicleId = some c.vehicleId := text_some hne
  have hdriverText : text c.toState.driverId = some driver := by
    show text c.driverId = some driver
    rw [hdriver]
    exact text_some hdriverNe
  have htarget : s'.dispatchText DispatchResultState.targetVehicleId = some c.vehicleId := by
    rw [← hs']
    show text (text c.toState.vehicleId) = some c.vehicleId
    rw [hvehicleText, text_some hne]
  have htargetDriver : s'.dispatchText DispatchResultState.targetDriverId = some driver := by
    rw [← hs']
    show text (text c.toState.driverId) = some driver
    rw [hdriverText, text_some hdriverNe]
  have hselected : text s'.selectedVehicleId = some c.vehicleId := by
    rw [← hs']
    show text (text c.toState.vehicleId <|> s.selectedVehicleId) = some c.vehicleId
    rw [hvehicleText]
    exact text_some hne
  have hselectedDriver : text s'.selectedDriverId = some driver := by
    rw [← hs']
    show text (text c.toState.driverId <|> s.selectedDriverId) = some driver
    rw [hdriverText]
    exact text_some hdriverNe
  have haudited : s'.auditedCandidate = some c.toState := by
    rw [GraphState.auditedCandidate, htarget, ← hs']
    exact h.find_candidate hc hne
  have horiginal : (s'.dispatchText DispatchResultState.originalVehicleId <|> text s'.vehicleId) =
      text s.vehicleId := by
    rw [← hs']
    exact original_eq s (some c.toState) id dispatchNo
  have hother : some c.vehicleId ≠ text s.vehicleId := by
    intro hsame
    obtain ⟨hvehicle, -⟩ := text_eq_some.mp hsame.symm
    apply hsuits.replaces
    show c.vehicleId = s.vehicleId.getD ""
    rw [hvehicle]
    rfl
  refine and_congr ?_ ?_
  · unfold GraphState.vehicleAssignment
    rw [haudited]
    dsimp only
    rw [horiginal, htarget, htargetDriver, hselected, hselectedDriver, hvehicleText, hdriverText,
      decide_eq_true_iff]
    constructor
    · exact fun hall => hall.1
    · intro hvehicle
      exact ⟨hvehicle, Option.some_ne_none _, hother, rfl, rfl, rfl, rfl,
        congrArg some hsuits.vehicleStatus, .inl hsuits.driverStatus, heligible,
        congrArg some hsuits.noReasons⟩
  · have hweight : s'.cargoWeightKg = s.cargoWeightKg := by
      rw [← hs']
      rfl
    have htype : s'.cargoType = s.cargoType := by
      rw [← hs']
      rfl
    unfold GraphState.capacityConstraint
    rw [haudited, hweight, htype]
    cases hcargo : s.cargoWeightKg with
    | none => exact iff_of_false Bool.false_ne_true fun hno => hno rfl
    | some weight =>
      refine iff_of_true (decide_eq_true ⟨?_, ?_⟩) (Option.some_ne_none _)
      · have hcapacity : s.cargoWeightKg.getD 0 ≤ c.remainingLoadKg := hsuits.capacity
        rw [hcargo] at hcapacity
        exact hcapacity
      · by_cases hcold : text s.cargoType = some "COLD_CHAIN"
        · obtain ⟨hcoldType, -⟩ := text_eq_some.mp hcold
          have hcapability : c.cargoCapability = "COLD_CHAIN" := hsuits.capability (by
            show s.cargoType.getD "GENERAL" = "COLD_CHAIN"
            rw [hcoldType]
            rfl)
          right
          show text (some c.cargoCapability) = some "COLD_CHAIN"
          rw [hcapability]
          rfl
        · exact .inl hcold

/-! ### A path that has been planned -/

theorem travels_iff {r : RoutingService} {restores : Bool} {fuel : ℕ} {s s' : GraphState}
    (h : routingNode (some r) restores fuel s = .ok s') (hanswer : r.answer restores fuel s = .ok result)
    (hs : RoutingLeaves s result s') (hreview : result.requiresManualReview = false) :
    (s'.routeConnectivity = true ∧ s'.blockedEdgeExclusion = true) ↔ Travels r s' := by
  unfold Travels
  rw [hs.ends]
  split
  · rename_i hplans
    obtain ⟨⟨origin, destination⟩, hends⟩ := Option.isSome_iff_exists.mp hplans
    obtain ⟨result', hanswer', hs'⟩ := routing_ok h
    rw [hanswer] at hanswer'
    cases hanswer'
    rw [if_pos hplans] at hs'
    obtain ⟨context, status, -, -, hplan⟩ := RoutingService.answer_planned hends hanswer
    rcases RoutingService.plan_ok hplan with ⟨hdeclined, -⟩ | ⟨-, snapshot, path, -, -, hplanned⟩
    · rw [hdeclined.review] at hreview
      cases hreview
    · obtain ⟨objective, hfound⟩ := hplanned.found
      have hpath : s'.recommendedPath = some path := by
        rw [hs']
        exact hplanned.recommendedPath
      have hedges : s'.pathEdgeIds = path.edgeIds := by rw [GraphState.pathEdgeIds, hpath]; rfl
      have hnodes : s'.pathNodeIds = path.nodeIds := by rw [GraphState.pathNodeIds, hpath]; rfl
      have hroads : s'.roadNetworkEdges = snapshot.edges := by
        rw [hs']
        exact hplanned.edges
      have hblocked : s'.blockedEdgeIds = RoutingService.blockedEdges s.affectedEdgeIds := by
        rw [hs']
        exact hplanned.blocked
      have hlisted : ∀ edgeId ∈ path.edgeIds, ∃ edge ∈ snapshot.edges, edge.edgeId = edgeId := by
        intro edgeId hid
        obtain ⟨edge, -, hmem, hsame, -⟩ := find_edge hfound hid
        exact ⟨edge, hmem, hsame⟩
      have hopen := pathEdgesAreOpen_iff hlisted
      have hexcluded : ∀ edgeId ∈ path.edgeIds,
          edgeId ∉ RoutingService.blockedEdges s.affectedEdgeIds := by
        intro edgeId hid
        obtain ⟨-, -, -, -, hnot, -⟩ := find_edge hfound hid
        exact hnot
      rw [GraphState.routeConnectivity, GraphState.blockedEdgeExclusion, hedges, hnodes, hroads,
        hblocked, pathConnects_iff (find_sound hfound), Bool.and_eq_true, hopen, decide_eq_true_iff]
      constructor
      · rintro ⟨⟨hne, hnode, hedge⟩, -, -, -, hallowed⟩
        exact ⟨hne, hnode, hedge, hallowed⟩
      · rintro ⟨hne, hnode, hedge, hallowed⟩
        exact ⟨⟨hne, hnode, hedge⟩, hexcluded, hne, hedge, hallowed⟩
  · exact Iff.rfl

/-! ### A new dispatch -/

structure Decided (r : RoutingService) (s : GraphState) : Prop where
  review : s.requiresManualReview = some false
  decision : s.decision = some .keepRoute ∨ s.decision = some .reroute
  identifiedIssue : s.identifiedIssue = some s.issueCategory.text
  reassigned : s.issueCategory = .vehicleBreakdown →
    ∃ candidates selected, Allotted s candidates selected
  travels : (s.routeConnectivity = true ∧ s.blockedEdgeExclusion = true) ↔ Travels r s
  memory : s.memoryAdopted = some true → ∃ memory ∈ s.memoryResults,
    s.adoptedMemoryId = some memory.memoryId

theorem decided_of_routing {v : Services} {r : RoutingService} {s₀ s s' : GraphState}
    (hcollected : v.collected s₀ = .ok s) (h : routingNode (some r) v.snapshots.isSome v.fuel s = .ok s')
    (hreview : s'.requiresManualReview = some false) : Decided r s' := by
  obtain ⟨result, hanswer, hs⟩ := routing_leaves h
  obtain ⟨hresult, haction, hdecision⟩ := hs.decides hanswer hreview
  refine ⟨hreview, hdecision, ?_, fun hbreakdown => ?_, travels_iff h hanswer hs hresult, ?_⟩
  · rw [hs.category]
    exact hs.identifiedIssue
  · rw [hs.category] at hbreakdown
    have hreassigned : s.reassignedBreakdown = true := by
      simpa [GraphState.actionOnly, hbreakdown, IssueCategory.nonRoute] using haction
    obtain ⟨candidates, selected, hallotted⟩ :=
      collected_reassigned hcollected (of_decide_eq_true hreassigned).2
    exact ⟨candidates, selected, hallotted.leaves hs⟩
  · intro hadopted
    rw [hs.memoryAdopted] at hadopted
    rw [hs.memoryResults, hs.adoptedMemoryId]
    cases hends : r.planningEnds s with
    | some ends =>
      obtain ⟨context, status, -, -, hplan⟩ := RoutingService.answer_planned hends hanswer
      rcases RoutingService.plan_ok hplan with ⟨hdeclined, -⟩ | ⟨-, _, _, -, -, hplanned⟩
      · rw [hdeclined.review] at hresult
        cases hresult
      · rw [hplanned.memory] at hadopted
        cases hadopted
    | none =>
      obtain ⟨status, -, rfl⟩ := RoutingService.answer_routed hends hanswer
      rcases RoutingService.route_ok r s.routeId s.memoryResults (s.roadCondition.getD "unknown")
        (s.environmentRisk.getD "elevated") status with ⟨hdeclined, -⟩ | ⟨-, _, _, -, -, hrouted⟩
      · rw [hdeclined.review] at hresult
        cases hresult
      · exact hrouted.memory (Option.some.inj hadopted)

section Created

variable {r : RoutingService} {s : GraphState} {candidate : Option CandidateState} {id : ℕ}
  {dispatchNo : String}

theorem Decided.manualReview (h : Decided r s) : s.dispatchRequest.manualReview = false := by
  show (s.requiresManualReview.getD false || decide
    (s.decision.getD .manualReview = .manualReview ∨ s.decision.getD .manualReview = .noSafeRoute))
      = false
  rw [h.review]
  rcases h.decision with hkeep | hreroute
  · rw [hkeep]
    rfl
  · rw [hreroute]
    rfl

theorem Decided.executed (h : Decided r s) :
    (s.dispatched (s.dispatchRequest.created candidate id dispatchNo)).executed = true := by
  show (!s.dispatchRequest.manualReview) = true
  rw [h.manualReview]
  rfl

theorem Decided.targetRouteId (h : Decided r s) :
    (s.dispatched (s.dispatchRequest.created candidate id dispatchNo)).targetRouteId =
      text (some ((text s.recommendedRoute).getD s.routeId)) := by
  show text (if s.dispatchRequest.manualReview then s.recommendedRoute
    else some ((text s.recommendedRoute).getD s.routeId)) = _
  rw [h.manualReview]
  rfl

theorem Decided.issue (h : Decided r s) :
    (s.dispatched (s.dispatchRequest.created candidate id dispatchNo)).issue =
      some s.issueCategory.text := by
  show (text s.identifiedIssue <|> text (some s.anomalyType)) = _
  rw [h.identifiedIssue, text_some s.issueCategory.text_ne_empty]
  rfl

theorem Decided.memoryConsistency (h : Decided r s) (hadopted : s.memoryAdopted = some true) :
    (s.dispatched (s.dispatchRequest.created candidate id dispatchNo)).memoryConsistency = true ↔
      text s.adoptedMemoryId ≠ none := by
  obtain ⟨memory, hmem, hid⟩ := h.memory hadopted
  rw [show (s.dispatched (s.dispatchRequest.created candidate id dispatchNo)).memoryConsistency =
    s.memoryConsistency from rfl]
  unfold GraphState.memoryConsistency
  cases htext : text s.adoptedMemoryId with
  | none => exact iff_of_false Bool.false_ne_true fun hno => hno rfl
  | some memoryId =>
    obtain ⟨hadoptedId, -⟩ := text_eq_some.mp htext
    rw [hid] at hadoptedId
    refine iff_of_true (List.any_eq_true.mpr ⟨memory, hmem, ?_⟩) (Option.some_ne_none _)
    exact decide_eq_true (Option.some.inj hadoptedId)

theorem keep_iff :
    text (some ((text s.recommendedRoute).getD s.routeId)) = text (some s.routeId) ↔
      text s.recommendedRoute = none ∨ s.recommendedRoute = some s.routeId := by
  cases htext : text s.recommendedRoute with
  | none => exact iff_of_true rfl (.inl rfl)
  | some route =>
    obtain ⟨hroute, hne⟩ := text_eq_some.mp htext
    show text (some route) = text (some s.routeId) ↔ some route = none ∨ s.recommendedRoute = _
    rw [hroute, text_some hne, eq_comm, text_eq_some]
    constructor
    · rintro ⟨hsame, -⟩
      exact .inr hsame.symm
    · rintro (hnone | hsame)
      · cases hnone
      · exact ⟨hsame.symm, hne⟩

theorem Decided.stands_iff (h : Decided r s) (hreservable : s.dispatchRequest.Reservable candidate) :
    (s.dispatched (s.dispatchRequest.created candidate id dispatchNo)).Stands ↔ Auditable r s := by
  constructor
  · intro hstands
    refine ⟨fun hkeep => ?_, fun hreroute => (hstands.reroute hreroute).1, fun hbreakdown => ?_,
      fun hroad => ?_, fun hadopted => ?_, fun hfallback => ?_⟩
    · rw [← keep_iff, ← h.targetRouteId]
      exact (hstands.keep hkeep).2
    · obtain ⟨candidates, selected, hallotted⟩ := h.reassigned hbreakdown
      refine (hallotted.assignment hreservable id dispatchNo).mp (hstands.breakdown ?_)
      rw [h.issue, IssueCategory.text_eq_breakdown.mpr hbreakdown]
    · refine h.travels.mp (hstands.road (hroad.imp (fun hblocked => ?_) fun hedges => hedges))
      rw [h.issue, IssueCategory.text_eq_blocked.mpr hblocked]
    · exact (h.memoryConsistency hadopted).mp (hstands.memory hadopted)
    · exact Option.isSome_iff_ne_none.mp (hstands.fallback hfallback)
  · intro hauditable
    refine ⟨fun hissue => ?_, fun hroad => ?_, fun hnoSafe => ?_, fun hreroute => ?_,
      fun hkeep => ⟨h.executed, ?_⟩, fun hadopted => ?_, fun hfallback => ?_⟩
    · rw [h.issue, Option.some.injEq, IssueCategory.text_eq_breakdown] at hissue
      obtain ⟨candidates, selected, hallotted⟩ := h.reassigned hissue
      exact (hallotted.assignment hreservable id dispatchNo).mpr (hauditable.breakdown hissue)
    · refine h.travels.mpr (hauditable.road (hroad.imp (fun hissue => ?_) fun hedges => hedges))
      rw [h.issue, Option.some.injEq, IssueCategory.text_eq_blocked] at hissue
      exact hissue
    · have hdecision : s.decision = some .noSafeRoute := hnoSafe
      rcases h.decision with hkeep | hreroute
      · rw [hkeep] at hdecision
        cases hdecision
      · rw [hreroute] at hdecision
        cases hdecision
    · have hroute := hauditable.reroute hreroute
      refine ⟨hroute, h.executed, ?_⟩
      rw [h.targetRouteId]
      obtain ⟨route, htext⟩ := Option.ne_none_iff_exists'.mp hroute
      show text (some ((text s.recommendedRoute).getD s.routeId)) = text s.recommendedRoute
      rw [htext]
      exact text_some (text_eq_some.mp htext).2
    · rw [h.targetRouteId]
      exact keep_iff.mpr (hauditable.keep hkeep)
    · exact (h.memoryConsistency hadopted).mpr (hauditable.memory hadopted)
    · exact Option.isSome_iff_ne_none.mpr (hauditable.fallback hfallback)

end Created

/-- **Planner, dispatcher and auditor agree** on a new dispatch exactly when the state behind routing is
auditable, or there is nothing to reject: the state carries a conflict from before, or the audit
cannot be recorded. -/
theorem accord_iff {v : Services} {r : RoutingService} {world : List (CallOutcome × Store)} {persists : Bool}
    {s₀ s₅ s₆ s₇ : GraphState} (hcollected : v.collected s₀ = .ok s₅)
    (hrouting : routingNode (some r) v.snapshots.isSome v.fuel s₅ = .ok s₆)
    (hreview : s₆.requiresManualReview = some false)
    (hcreated : ∃ result, s₆.dispatchRequest.execute world =
      some (.created s₆.dispatchRequest result))
    (hdispatch : dispatchNode (some world) s₆ = .ok s₇) :
    (auditNode persists s₇).auditStatus ≠ some .rejected ↔
      Auditable r s₆ ∨ s₆.errorCode.any ErrorCode.conflict = true ∨
        (s₆.taskId ≠ "" ∧ persists = false) := by
  have hdecided := decided_of_routing hcollected hrouting hreview
  obtain ⟨result, hresult⟩ := hcreated
  rcases dispatch_ok hdispatch with ⟨candidate, id, dispatchNo, hreservable, -, rfl⟩ |
    ⟨_, hreplayed, -⟩ | ⟨hraised, -⟩
  · have hstands : (s₆.dispatched (s₆.dispatchRequest.created candidate id dispatchNo)).Stands ↔
        Auditable r s₆ := hdecided.stands_iff hreservable
    generalize hs₇ : s₆.dispatched (s₆.dispatchRequest.created candidate id dispatchNo) = s₇ at *
    have hunderReview : s₇.underReview = s₆.errorCode.any ErrorCode.conflict := by
      rw [← hs₇]
      show (decide (s₆.decision = some .manualReview ∨
        some s₆.dispatchRequest.manualReview = some true) || s₆.errorCode.any ErrorCode.conflict) = _
      rw [hdecided.manualReview]
      rcases hdecided.decision with hkeep | hreroute
      · rw [hkeep]
        rfl
      · rw [hreroute]
        rfl
    have hfails : s₇.recordFails persists = true ↔ s₆.taskId ≠ "" ∧ persists = false := by
      rw [← hs₇]
      show ((text (some s₆.taskId)).isSome && true && !persists) = true ↔ _
      by_cases htask : s₆.taskId = ""
      · rw [htask]
        exact iff_of_false (by simp [text]) fun h => h.1 rfl
      · rw [text_some htask]
        simp [htask]
    unfold auditNode
    split
    · rename_i hrecord
      exact iff_of_true (fun hrejected => by cases hrejected) (.inr (.inr (hfails.mp hrecord)))
    · rename_i hrecord
      show some s₇.evaluate.status ≠ some .rejected ↔ _
      rw [ne_eq, Option.some.injEq, GraphState.evaluate_rejected, hunderReview, hstands]
      constructor
      · intro hnot
        by_cases hconflict : s₆.errorCode.any ErrorCode.conflict = true
        · exact .inr (.inl hconflict)
        · left
          by_contra hauditable
          exact hnot ⟨by simpa using hconflict, hauditable⟩
      · rintro (hauditable | hconflict | hrecorded)
        · exact fun h => h.2 hauditable
        · intro h
          rw [h.1] at hconflict
          cases hconflict
        · exact absurd (hfails.mpr hrecorded) hrecord
  · rw [hresult] at hreplayed
    cases hreplayed
  · rw [hresult] at hraised
    cases hraised

/-! ### A route that is kept -/

/-- The states behind the collecting nodes, behind routing and behind dispatch. -/
def Services.stages (v : Services) (s₀ : GraphState) :
    Except GraphError (GraphState × GraphState × GraphState) := do
  let s₅ ← v.collected s₀
  let s₆ ← routingNode v.routing v.snapshots.isSome v.fuel s₅
  let s₇ ← dispatchNode v.dispatch s₆
  return (s₅, s₆, s₇)

theorem stages_ok {v : Services} {s₀ s₅ s₆ s₇ : GraphState} (h : v.stages s₀ = .ok (s₅, s₆, s₇)) :
    v.collected s₀ = .ok s₅ ∧ routingNode v.routing v.snapshots.isSome v.fuel s₅ = .ok s₆ ∧
      dispatchNode v.dispatch s₆ = .ok s₇ := by
  obtain ⟨t₅, h₅, h⟩ := bind_eq_ok.mp h
  obtain ⟨t₆, h₆, h⟩ := bind_eq_ok.mp h
  obtain ⟨t₇, h₇, h⟩ := bind_eq_ok.mp h
  cases Except.ok.inj h
  exact ⟨h₅, h₆, h₇⟩

def GraphState.creates (s : GraphState) (world : List (CallOutcome × Store)) : Bool :=
  match s.dispatchRequest.execute world with
  | some (.created _ _) => true
  | _ => false

theorem creates_iff {s : GraphState} {world : List (CallOutcome × Store)} :
    s.creates world = true ↔ ∃ result, s.dispatchRequest.execute world =
      some (.created s.dispatchRequest result) := by
  unfold GraphState.creates
  constructor
  · intro h
    split at h
    · rename_i r result hexecute
      obtain rfl : r = s.dispatchRequest := (execute_tries hexecute).1
      exact ⟨result, hexecute⟩
    · cases h
  · rintro ⟨result, hexecute⟩
    rw [hexecute]

/-- The routes of a catalogue stand the audit. -/
theorem accord_iff_catalogue : ∃ s₅ s₆ s₇,
    catalogueServices.stages mismatchedTask = .ok (s₅, s₆, s₇) ∧
    s₆.requiresManualReview = some false ∧
    (Auditable catalogueRouting s₆ ∨ s₆.errorCode.any ErrorCode.conflict = true ∨
      (s₆.taskId ≠ "" ∧ true = false)) := by
  have hrun : ((catalogueServices.stages mismatchedTask).toOption.map fun stages =>
      (stages.2.1.requiresManualReview, stages.2.1.creates (freeWorld "T-1"),
        (auditNode true stages.2.2).auditStatus)) =
      some (some false, true, some .approved) := by decide +kernel
  obtain ⟨⟨s₅, s₆, s₇⟩, hstages, hrun⟩ := Option.map_eq_some_iff.mp hrun
  rw [toOption_eq_some] at hstages
  obtain ⟨hreview, hrun⟩ := Prod.mk.inj hrun
  obtain ⟨hcreates, hstatus⟩ := Prod.mk.inj hrun
  obtain ⟨h₅, h₆, h₇⟩ := stages_ok hstages
  refine ⟨s₅, s₆, s₇, hstages, hreview, ?_⟩
  refine (accord_iff h₅ h₆ hreview (creates_iff.mp hcreates) h₇).mp ?_
  rw [hstatus]
  decide

/-- One road leads from the origin to the destination. -/
def singleRoad : RoadNetworkSnapshot where
  version := 1
  nodes := ["N01", "N06"]
  edges := [⟨"E01", "N01", "N06", 10, 20, .low, .open, 1, 10, true⟩]
  edgeIds_nodup := List.nodup_singleton _

def roadServices : Services where
  sandtable := some ⟨fun _ => some mismatchedOrder, fun _ => some mismatchedOrder, fun _ => true⟩
  snapshots := some singleRoad
  routing := some {
    routeProvider := none
    memoryAdoptionThreshold := 8 / 10
    roadNetwork := some singleRoad
    hasPathFinder := true
    sha256 := fun _ => "e7e7dd241b31082d328fe29439a320dac14696e5f2b7c9f42c745ba274555d8b" }
  dispatch := some (freeWorld "T-1")
  audit := some true
  fuel := 4

/-- The vehicle of the order reports heavy rain. -/
def rainTask : GraphState := { mismatchedTask with vehicleId := some "V-002" }

/-- The plan keeps the route; the dispatch goes to a route id of the plan's own, and the auditor
rejects it because it is not the task's. -/
theorem kept_route_rejected :
    ((roadServices.stages rainTask).toOption.map fun stages =>
      (stages.2.1.decision, stages.2.1.requiresManualReview,
        stages.2.1.creates (freeWorld "T-1"))) = some (some .keepRoute, some false, true) ∧
    ((roadServices.stages rainTask).toOption.map fun stages =>
      (stages.2.1.recommendedRoute, (auditNode true stages.2.2).auditStatus)) =
      some (some "RTE-E7E7DD241B31082D", some .rejected) := by
  refine ⟨?_, ?_⟩
  · decide +kernel
  · decide +kernel

end CountyFlow.Graph
