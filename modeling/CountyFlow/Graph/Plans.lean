import CountyFlow.Graph.Run
import CountyFlow.Road.Paths

/-!
# What the nodes in the middle answer

A plan or a route asks for a review, or recommends what the path finder or the route provider has found.
-/

namespace CountyFlow.Graph

open CountyFlow.Lib CountyFlow.Road CountyFlow.Dispatch

variable {paths rest : List PathResult} {path : PathResult} {candidate : RouteCandidate}
  {candidates : List RouteCandidate} {snapshot : RoadNetworkSnapshot} {context : RoutePlanningContext}
  {affectedEdgeIds : List String}

namespace RoutingService

variable {v : RoutingService}

/-! ### Paths -/

theorem mem_byEdges (h : path ∈ byEdges paths) : path ∈ paths := by
  induction paths with
  | nil => cases h
  | cons first rest ih =>
    rcases List.mem_cons.mp h with rfl | hrest
    · exact List.mem_cons_self ..
    · exact List.mem_cons_of_mem _ (ih (List.mem_of_mem_filter hrest))

theorem byEdges_eq_nil : byEdges paths = [] ↔ paths = [] := by
  cases paths with
  | nil => exact Iff.rfl
  | cons first rest => exact ⟨fun h => (by cases h), fun h => (by cases h)⟩

theorem preferred_mem (candidate : RouteCandidate) (rest : List RouteCandidate) :
    preferred candidate rest ∈ candidate :: rest := by
  unfold preferred
  induction rest generalizing candidate with
  | nil => exact List.mem_cons_self ..
  | cons other rest ih =>
    rw [List.foldl_cons]
    split
    · exact List.mem_cons_of_mem _ (ih other)
    · rcases List.mem_cons.mp (ih candidate) with heq | hrest
      · rw [heq]
        exact List.mem_cons_self ..
      · exact List.mem_cons_of_mem _ (List.mem_cons_of_mem _ hrest)

theorem pathRouteId_ne_empty (edgeIds : List String) : v.pathRouteId edgeIds ≠ "" := by
  intro h
  have hlist : (v.pathRouteId edgeIds).toList = [] := by rw [h]; rfl
  rw [pathRouteId, String.toList_append] at hlist
  exact absurd (List.append_eq_nil_iff.mp hlist).1 (by decide)

theorem scorePath_ok {single : Bool} {maxMinutes maxDistance maxRisk : ℚ}
    (h : v.scorePath single maxMinutes maxDistance maxRisk path = .ok candidate) :
    candidate.available = true ∧ candidate.edgeIds = path.edgeIds ∧
      candidate.routeId = v.pathRouteId path.edgeIds := by
  obtain ⟨minutes, -, h⟩ := bind_eq_ok.mp h
  obtain ⟨distance, -, h⟩ := bind_eq_ok.mp h
  cases h
  exact ⟨rfl, rfl, rfl⟩

theorem scorePaths_ok (h : v.scorePaths path rest = .ok candidates) (hmem : candidate ∈ candidates) :
    candidate.available = true ∧ candidate.routeId = v.pathRouteId candidate.edgeIds ∧
      ∃ p ∈ path :: rest, p.edgeIds = candidate.edgeIds := by
  obtain ⟨p, hp, hscore⟩ := exists_of_forall₂ (forall₂_of_mapM h) hmem
  obtain ⟨havailable, hedges, hid⟩ := scorePath_ok hscore
  exact ⟨havailable, by rw [hid, hedges], p, hp, hedges.symm⟩

theorem remainingPaths_ok {fuel : ℕ} {blocked : List String}
    (h : remainingPaths fuel snapshot context blocked = .ok paths) (hpath : path ∈ paths) :
    ∃ objective, find fuel snapshot context.startNodeId context.destinationNodeId objective
      context.activeVehicleWeightTons blocked = some (some path) := by
  obtain ⟨results, hresults, h⟩ := bind_eq_ok.mp h
  cases h
  obtain ⟨found, hfound, hid⟩ := List.mem_filterMap.mp hpath
  obtain rfl : found = some path := hid
  obtain ⟨objective, -, hobjective⟩ := exists_of_forall₂ (forall₂_of_mapM hresults) hfound
  exact ⟨objective, searched_eq_ok.mp hobjective⟩

/-- A result that asks for a review. -/
structure Declined (result : RoutingResult) : Prop where
  review : result.requiresManualReview = true
  recommendedPath : result.recommendedPath = none

structure Planned (v : RoutingService) (fuel : ℕ) (context : RoutePlanningContext)
    (affectedEdgeIds : List String) (snapshot : RoadNetworkSnapshot) (path : PathResult)
    (result : RoutingResult) : Prop where
  found : ∃ objective, find fuel snapshot context.startNodeId context.destinationNodeId objective
    context.activeVehicleWeightTons (blockedEdges affectedEdgeIds) = some (some path)
  recommendedPath : result.recommendedPath = some path
  recommendedRoute : result.recommendedRoute = some (v.pathRouteId path.edgeIds)
  candidate : ∃ candidate ∈ result.candidateRoutes, candidate.available = true ∧
    candidate.routeId = v.pathRouteId path.edgeIds
  decision : result.decision = .keepRoute ∨ result.decision = .reroute
  review : result.requiresManualReview = false
  memory : result.memoryAdopted = false
  blocked : result.blockedEdgeIds = blockedEdges affectedEdgeIds
  edges : result.roadNetworkEdges = snapshot.edges

theorem planned_planned {fuel : ℕ} {originalPath : Option PathResult} {first : PathResult}
    {recommended : RouteCandidate}
    (hpaths : remainingPaths fuel snapshot context (blockedEdges affectedEdgeIds) = .ok paths)
    (hbyEdges : byEdges paths = first :: rest) (hscores : v.scorePaths first rest = .ok candidates)
    (hmem : recommended ∈ candidates) :
    ∃ path, v.Planned fuel context affectedEdgeIds snapshot path
      (planned snapshot (blockedEdges affectedEdgeIds) originalPath (first :: rest) candidates
        recommended) := by
  obtain ⟨havailable, hid, p, hp, hedges⟩ := scorePaths_ok hscores hmem
  obtain ⟨path, hpath⟩ : ∃ path,
      (first :: rest).find? (fun path => path.edgeIds = recommended.edgeIds) = some path := by
    rw [← Option.isSome_iff_exists, List.find?_isSome]
    exact ⟨p, hp, by simpa using hedges⟩
  have hsame : path.edgeIds = recommended.edgeIds := by simpa using List.find?_some hpath
  have hremaining : path ∈ paths := by
    apply mem_byEdges
    rw [hbyEdges]
    exact List.mem_of_find?_eq_some hpath
  refine ⟨path, ⟨remainingPaths_ok hpaths hremaining, hpath, ?_, ?_, ?_, rfl, rfl, rfl, rfl⟩⟩
  · rw [hsame, ← hid]
    rfl
  · exact ⟨recommended, hmem, havailable, by rw [hsame, ← hid]⟩
  · unfold planned
    dsimp only
    split
    · exact .inr rfl
    · exact .inl rfl

theorem plan_ok {fuel : ℕ} {status : CapacityStatus} {roadNetworkSnapshot : Option RoadNetworkSnapshot}
    {result : RoutingResult}
    (h : v.plan fuel context status affectedEdgeIds roadNetworkSnapshot = .ok result) :
    (Declined result ∧ (status.closed = true ∨ ∀ snapshot,
        v.network roadNetworkSnapshot = some snapshot →
          remainingPaths fuel snapshot context (blockedEdges affectedEdgeIds) = .ok [])) ∨
      (status.closed = false ∧ ∃ snapshot path, v.network roadNetworkSnapshot = some snapshot ∧
        remainingPaths fuel snapshot context (blockedEdges affectedEdgeIds) ≠ .ok [] ∧
        v.Planned fuel context affectedEdgeIds snapshot path result) := by
  unfold plan at h
  split at h
  · rename_i hnetwork
    cases h
    exact .inl ⟨⟨rfl, rfl⟩, .inr fun snapshot hsnapshot => by rw [hnetwork] at hsnapshot; cases hsnapshot⟩
  · rename_i snapshot hnetwork
    split at h
    · rename_i hclosed
      cases h
      exact .inl ⟨⟨rfl, rfl⟩, .inl hclosed⟩
    · rename_i hclosed
      obtain ⟨originalPath, -, h⟩ := bind_eq_ok.mp h
      obtain ⟨paths, hpaths, h⟩ := bind_eq_ok.mp h
      split at h
      · rename_i hnil
        cases h
        refine .inl ⟨⟨rfl, rfl⟩, .inr fun other hother => ?_⟩
        rw [hnetwork] at hother
        cases hother
        rw [hpaths, byEdges_eq_nil.mp hnil]
      · rename_i first rest hbyEdges
        obtain ⟨candidates, hscores, h⟩ := bind_eq_ok.mp h
        split at h
        · cases h
        · rename_i candidate others
          cases h
          obtain ⟨path, hplanned⟩ := planned_planned hpaths hbyEdges hscores
            (preferred_mem candidate others)
          refine .inr ⟨by simpa using hclosed, snapshot, path, hnetwork, ?_, hplanned⟩
          rw [hpaths]
          intro hnil
          rw [Except.ok.inj hnil] at hbyEdges
          cases hbyEdges

structure Routed (currentRouteId : String) (memoryResults : List MemoryRecall)
    (best : RouteCandidate) (result : RoutingResult) : Prop where
  recommendedRoute : result.recommendedRoute = some best.routeId
  candidate : best ∈ result.candidateRoutes ∧ best.available = true
  decision : result.decision = if best.routeId = currentRouteId then .keepRoute else .reroute
  review : result.requiresManualReview = false
  memory : result.memoryAdopted = true → ∃ memory ∈ memoryResults,
    result.adoptedMemoryId = some memory.memoryId

theorem route_ok (v : RoutingService) (currentRouteId : String) (memoryResults : List MemoryRecall)
    (roadCondition environmentRisk : String) (status : CapacityStatus) :
    (Declined (v.route currentRouteId memoryResults roadCondition environmentRisk status) ∧
      (status.closed = true ∨ ∀ provider, v.routeProvider = some provider →
        v.bestRoute provider currentRouteId memoryResults.head? roadCondition environmentRisk status
          = none)) ∨
    (status.closed = false ∧ ∃ provider best, v.routeProvider = some provider ∧
      v.bestRoute provider currentRouteId memoryResults.head? roadCondition environmentRisk status
        = some best ∧
      Routed currentRouteId memoryResults best
        (v.route currentRouteId memoryResults roadCondition environmentRisk status)) := by
  unfold route
  split
  · rename_i hclosed
    exact .inl ⟨⟨rfl, rfl⟩, .inl hclosed⟩
  · rename_i hclosed
    split
    · rename_i hprovider
      exact .inl ⟨⟨rfl, rfl⟩, .inr fun provider h => by rw [hprovider] at h; cases h⟩
    · rename_i provider hprovider
      dsimp only
      split
      · rename_i hnone
        refine .inl ⟨⟨rfl, rfl⟩, .inr fun other hother => ?_⟩
        rw [hprovider] at hother
        cases hother
        exact hnone
      · rename_i best hbest
        refine .inr ⟨by simpa using hclosed, provider, best, hprovider, hbest, ?_⟩
        have hfound := hbest
        unfold bestRoute at hfound
        refine ⟨rfl, ⟨List.mem_of_find?_eq_some hfound, by simpa using List.find?_some hfound⟩, rfl,
          rfl, fun hadopted => ?_⟩
        obtain ⟨memory, hmemory⟩ := Option.isSome_iff_exists.mp hadopted
        have hhead : memoryResults.head? = some memory := (Option.filter_eq_some_iff.mp hmemory).1
        refine ⟨memory, List.mem_of_mem_head? hhead, ?_⟩
        exact congrArg (Option.map MemoryRecall.memoryId) hmemory

/-! ### The routing node -/

variable {restores : Bool} {fuel : ℕ} {s s' : GraphState} {result : RoutingResult}

/-- The snapshot that the routing node hands to the plan. -/
abbrev handed (restores : Bool) (s : GraphState) : Option RoadNetworkSnapshot :=
  if restores then s.roadNetworkSnapshot else none

theorem answer_planned {origin destination : String} (hends : v.planningEnds s = some (origin, destination))
    (h : v.answer restores fuel s = .ok result) :
    ∃ context status, s.planningContext origin destination = .ok context ∧
      s.capacityStatus = some status ∧
      v.plan fuel context status s.affectedEdgeIds (handed restores s) = .ok result := by
  unfold answer at h
  rw [hends] at h
  obtain ⟨context, hcontext, h⟩ := bind_eq_ok.mp h
  obtain ⟨status, hstatus, h⟩ := bind_eq_ok.mp h
  refine ⟨context, status, hcontext, ?_, h⟩
  unfold GraphState.requiredCapacityStatus at hstatus
  split at hstatus
  · cases hstatus
  · rename_i capacity hcapacity
    rw [GraphState.capacityStatus, hcapacity, ← Except.ok.inj hstatus]
    rfl

theorem answer_routed (hends : v.planningEnds s = none) (h : v.answer restores fuel s = .ok result) :
    ∃ status, s.capacityStatus = some status ∧
      result = v.route s.routeId s.memoryResults (s.roadCondition.getD "unknown")
        (s.environmentRisk.getD "elevated") status := by
  unfold answer at h
  rw [hends] at h
  obtain ⟨status, hstatus, h⟩ := bind_eq_ok.mp h
  refine ⟨status, ?_, (Except.ok.inj h).symm⟩
  unfold GraphState.requiredCapacityStatus at hstatus
  split at hstatus
  · cases hstatus
  · rename_i capacity hcapacity
    rw [GraphState.capacityStatus, hcapacity, ← Except.ok.inj hstatus]
    rfl

theorem answer_decides (h : v.answer restores fuel s = .ok result)
    (hreview : result.requiresManualReview = false) :
    result.decision = .keepRoute ∨ result.decision = .reroute := by
  cases hends : v.planningEnds s with
  | some ends =>
    obtain ⟨context, status, -, -, hplan⟩ := answer_planned hends h
    rcases plan_ok hplan with ⟨hdeclined, -⟩ | ⟨-, snapshot, path, -, -, hplanned⟩
    · rw [hdeclined.review] at hreview
      cases hreview
    · exact hplanned.decision
  | none =>
    obtain ⟨status, -, rfl⟩ := answer_routed hends h
    rcases route_ok v s.routeId s.memoryResults (s.roadCondition.getD "unknown")
      (s.environmentRisk.getD "elevated") status with ⟨hdeclined, -⟩ | ⟨-, _, best, -, -, hrouted⟩
    · rw [hdeclined.review] at hreview
      cases hreview
    · rw [hrouted.decision]
      split
      · exact .inl rfl
      · exact .inr rfl

end RoutingService

variable {s s' : GraphState}

theorem routing_ok {v : RoutingService} {restores : Bool} {fuel : ℕ}
    (h : routingNode (some v) restores fuel s = .ok s') :
    ∃ result, v.answer restores fuel s = .ok result ∧
      s' = if (v.planningEnds s).isSome then (s.recommended result).withPlan result
        else s.recommended result := by
  obtain ⟨result, hresult, h⟩ := bind_eq_ok.mp h
  exact ⟨result, hresult, (Except.ok.inj h).symm⟩

namespace GraphState

theorem recommendation_category (s : GraphState) (result : RoutingResult) :
    (s.recommendation result).issueCategory = s.issueCategory := by
  simp only [recommendation, recommend, issueCategory]

theorem recommendation_route (s : GraphState) (result : RoutingResult) :
    (s.recommendation result).recommendedRoute = if s.issueCategory.nonRoute then none
      else verifiedRoute result.recommendedRoute result.candidateRoutes := by
  unfold recommendation recommend issueCategory
  dsimp only

end GraphState

theorem recommended_path (s : GraphState) (result : RoutingResult) :
    (s.recommended result).recommendedPath = s.recommendedPath := by
  simp only [GraphState.recommended]

/-- What `routing_node` leaves behind for a result, whether it plans or not. -/
structure RoutingLeaves (s : GraphState) (result : RoutingResult) (s' : GraphState) : Prop where
  taskId : s'.taskId = s.taskId
  routeId : s'.routeId = s.routeId
  vehicleId : s'.vehicleId = s.vehicleId
  originNodeId : s'.originNodeId = s.originNodeId
  destinationNodeId : s'.destinationNodeId = s.destinationNodeId
  candidates : s'.candidateVehicles = s.candidateVehicles
  request : s'.allocationRequest = s.allocationRequest
  cargoWeightKg : s'.cargoWeightKg = s.cargoWeightKg
  cargoType : s'.cargoType = s.cargoType
  activeVehicleWeightTons : s'.activeVehicleWeightTons = s.activeVehicleWeightTons
  selectedWeight : s'.selectedVehicleGrossWeightTons = s.selectedVehicleGrossWeightTons
  capacityState : s'.capacityState = s.capacityState
  category : s'.issueCategory = s.issueCategory
  memoryResults : s'.memoryResults = s.memoryResults
  dispatchResult : s'.dispatchResult = s.dispatchResult
  identifiedIssue : s'.identifiedIssue = some s.issueCategory.text
  recommendedRoute : s'.recommendedRoute = s.finalRoute result
  memoryAdopted : s'.memoryAdopted = some result.memoryAdopted
  adoptedMemoryId : s'.adoptedMemoryId = result.adoptedMemoryId
  review : s'.requiresManualReview = some (s.needsReview result)
  decision : s'.decision = some (if s.needsReview result then .manualReview else result.decision)

theorem recommended_leaves (s : GraphState) (result : RoutingResult) :
    RoutingLeaves s result (s.recommended result) := by
  constructor
  case identifiedIssue =>
    show some (s.recommendation result).issueCategory.text = _
    rw [GraphState.recommendation_category]
  all_goals simp only [GraphState.recommended, GraphState.allocationRequest, GraphState.issueCategory]

theorem withPlan_leaves {result : RoutingResult} (h : RoutingLeaves s result s') :
    RoutingLeaves s result (s'.withPlan result) :=
  ⟨h.taskId, h.routeId, h.vehicleId, h.originNodeId, h.destinationNodeId, h.candidates, h.request,
    h.cargoWeightKg, h.cargoType, h.activeVehicleWeightTons, h.selectedWeight, h.capacityState,
    h.category, h.memoryResults, h.dispatchResult, h.identifiedIssue, h.recommendedRoute,
    h.memoryAdopted, h.adoptedMemoryId, h.review, h.decision⟩

theorem routing_leaves {v : RoutingService} {restores : Bool} {fuel : ℕ}
    (h : routingNode (some v) restores fuel s = .ok s') :
    ∃ result, v.answer restores fuel s = .ok result ∧ RoutingLeaves s result s' := by
  obtain ⟨result, hresult, rfl⟩ := routing_ok h
  refine ⟨result, hresult, ?_⟩
  split
  · exact withPlan_leaves (recommended_leaves s result)
  · exact recommended_leaves s result

theorem RoutingLeaves.ends {v : RoutingService} {result : RoutingResult} (h : RoutingLeaves s result s') :
    v.planningEnds s' = v.planningEnds s := by
  unfold RoutingService.planningEnds
  rw [h.originNodeId, h.destinationNodeId]

theorem RoutingLeaves.decides {v : RoutingService} {restores : Bool} {fuel : ℕ} {result : RoutingResult}
    (h : RoutingLeaves s result s') (hanswer : v.answer restores fuel s = .ok result)
    (hreview : s'.requiresManualReview = some false) :
    result.requiresManualReview = false ∧ s.actionOnly = false ∧
      (s'.decision = some .keepRoute ∨ s'.decision = some .reroute) := by
  have hneeds : s.needsReview result = false := by
    rw [h.review] at hreview
    exact Option.some.inj hreview
  have hparts := hneeds
  unfold GraphState.needsReview at hparts
  obtain ⟨hboth, -⟩ := Bool.or_eq_false_iff.mp hparts
  obtain ⟨hresult, haction⟩ := Bool.or_eq_false_iff.mp hboth
  refine ⟨hresult, haction, ?_⟩
  rw [h.decision, hneeds]
  rcases RoutingService.answer_decides hanswer hresult with hkeep | hreroute
  · exact .inl (congrArg some hkeep)
  · exact .inr (congrArg some hreroute)

namespace GraphState

variable {s : GraphState} {result : RoutingResult} {route : String}

theorem finalRoute_of_named (haction : s.actionOnly = false) (hroute : result.recommendedRoute = some route)
    (hname : route ≠ "")
    (hcandidate : ∃ candidate ∈ result.candidateRoutes, candidate.available = true ∧
      candidate.routeId = route) : s.finalRoute result = some route := by
  unfold finalRoute
  split
  · exact hroute
  · rename_i hreassigned
    have hcategory : s.issueCategory.nonRoute = false := by
      simpa [actionOnly, hreassigned] using haction
    obtain ⟨candidate, hmem, havailable, hid⟩ := hcandidate
    rw [recommendation_route, if_neg (by simp [hcategory]), hroute]
    refine Option.filter_eq_some_iff.mpr ⟨if_neg hname, List.any_eq_true.mpr ⟨candidate, hmem, ?_⟩⟩
    rw [hid, havailable]
    simp

theorem finalRoute_of_unnamed (hreassigned : s.reassignedBreakdown = false)
    (hroute : result.recommendedRoute = some "") : s.finalRoute result = none := by
  unfold finalRoute
  rw [if_neg (by simp [hreassigned]), recommendation_route, hroute]
  split
  · rfl
  · rfl

end GraphState

/-! ### The dispatch node -/

theorem dispatch_ok {world : List (CallOutcome × Store)} (h : dispatchNode (some world) s = .ok s') :
    (∃ candidate id dispatchNo, s.dispatchRequest.Reservable candidate ∧
      s.dispatchRequest.execute world = some (.created s.dispatchRequest
        (s.dispatchRequest.created candidate id dispatchNo)) ∧
      s' = s.dispatched (s.dispatchRequest.created candidate id dispatchNo)) ∨
    (∃ dispatch, s.dispatchRequest.execute world = some (.replayed s.dispatchRequest
        (s.dispatchRequest.result dispatch)) ∧
      s' = s.dispatched (s.dispatchRequest.result dispatch)) ∨
    (s.dispatchRequest.execute world = some (.raised s.dispatchRequest .vehicleReservationConflict) ∧
      s' = s.notReserved) := by
  unfold dispatchNode at h
  dsimp only at h
  split at h
  · rename_i r result hexecute
    obtain ⟨rfl, candidate, id, dispatchNo, hreservable, rfl⟩ := execute_tries hexecute
    exact .inl ⟨candidate, id, dispatchNo, hreservable, hexecute, (Except.ok.inj h).symm⟩
  · rename_i r result hexecute
    obtain ⟨rfl, dispatch, rfl⟩ := execute_tries hexecute
    exact .inr (.inl ⟨dispatch, hexecute, (Except.ok.inj h).symm⟩)
  · rename_i r hexecute
    obtain rfl : r = s.dispatchRequest := execute_tries hexecute
    exact .inr (.inr ⟨hexecute, (Except.ok.inj h).symm⟩)
  · cases h
  · cases h

/-! ### What the nodes before routing leave alone -/

/-- What the nodes between intake and routing leave of the location. -/
structure LocationKept (s s' : GraphState) : Prop where
  originNodeId : s'.originNodeId = s.originNodeId
  destinationNodeId : s'.destinationNodeId = s.destinationNodeId
  incidentNodeId : s'.incidentNodeId = s.incidentNodeId
  affectedEdgeIds : s'.affectedEdgeIds = s.affectedEdgeIds
  recommendedPath : s'.recommendedPath = s.recommendedPath

theorem LocationKept.trans {a b c : GraphState} (hab : LocationKept a b) (hbc : LocationKept b c) :
    LocationKept a c :=
  ⟨hbc.originNodeId.trans hab.originNodeId, hbc.destinationNodeId.trans hab.destinationNodeId,
    hbc.incidentNodeId.trans hab.incidentNodeId, hbc.affectedEdgeIds.trans hab.affectedEdgeIds,
    hbc.recommendedPath.trans hab.recommendedPath⟩

theorem recalled_kept (v : Services) (s : GraphState) : LocationKept (v.received s) (v.recalled s) := by
  have hmemory : ∀ (service : Option (Option (List MemoryRecall))) (t : GraphState),
      LocationKept t (entityMemoryNode service t) := by
    intro service t
    unfold entityMemoryNode
    split <;> exact ⟨rfl, rfl, rfl, rfl, rfl⟩
  have hgraph : ∀ (service : Option (Option Bool)) (t : GraphState),
      LocationKept t (graphMemoryNode service t) := by
    intro service t
    unfold graphMemoryNode
    split <;> exact ⟨rfl, rfl, rfl, rfl, rfl⟩
  have henvironment : ∀ (service : Option EnvironmentResult) (t : GraphState),
      LocationKept t (environmentNode service t) := by
    intro service t
    unfold environmentNode
    split <;> exact ⟨rfl, rfl, rfl, rfl, rfl⟩
  exact ((hmemory _ _).trans (hgraph _ _)).trans (henvironment _ _)

theorem capacityNode_kept {service : Option CapacityService} {fleet : Option FleetAllocationService}
    {restores : Bool} {fuel : ℕ} (h : capacityNode service fleet restores fuel s = .ok s') :
    LocationKept s s' := by
  unfold capacityNode at h
  split at h
  · cases h
    exact ⟨rfl, rfl, rfl, rfl, rfl⟩
  · split at h
    · cases h
      exact ⟨rfl, rfl, rfl, rfl, rfl⟩
    · split at h
      · split at h
        · cases h
        · cases h
          exact ⟨rfl, rfl, rfl, rfl, rfl⟩
        · cases h
          exact ⟨rfl, rfl, rfl, rfl, rfl⟩
      · cases h
        exact ⟨rfl, rfl, rfl, rfl, rfl⟩

theorem collected_kept {v : Services} (h : v.collected s = .ok s') : LocationKept (v.received s) s' :=
  (recalled_kept v s).trans (capacityNode_kept h)

theorem intakeNode_path (sandtable : Option Sandtable) (captured : Option RoadNetworkSnapshot)
    (s : GraphState) : (intakeNode sandtable captured s).recommendedPath = s.recommendedPath := by
  unfold intakeNode
  dsimp only
  repeat' split
  all_goals rfl

end CountyFlow.Graph
