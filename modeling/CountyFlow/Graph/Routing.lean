import CountyFlow.Graph.Recommendation

/-!
# Routing

`RoutingService.route` ranks the routes of a provider, `RoutingService.plan` the paths of the road
network, and `routing_node` turns the result into a decision.
-/

namespace CountyFlow.Graph

open CountyFlow.Road CountyFlow.Dispatch

/-- A provider of routes: its candidates, and `resolve_route_reference`. -/
structure RouteProvider where
  candidates : List RouteCandidate
  resolveRouteReference : String → Option String

/-- The service; `roadNetwork` is what its network provider answers, `sha256` the digest in
hexadecimal. -/
structure RoutingService where
  routeProvider : Option RouteProvider
  memoryAdoptionThreshold : ℚ
  roadNetwork : Option RoadNetworkSnapshot
  hasPathFinder : Bool
  sha256 : String → String

/-- `RoutingResult`; `noReachableRoute` is the routing status of that name. -/
structure RoutingResult where
  candidateRoutes : List RouteCandidate := []
  recommendedRoute : Option String := none
  decision : Decision := .manualReview
  decisionReason : String
  memoryAdopted : Bool := false
  adoptedMemoryId : Option String := none
  noReachableRoute : Bool := false
  requiresManualReview : Bool := true
  originalPath : Option PathResult := none
  recommendedPath : Option PathResult := none
  blockedEdgeIds : List String := []
  roadNetworkVersion : Option ℤ := none
  roadNetworkEdges : List RoadEdgeSnapshot := []
  deriving DecidableEq, Repr

/-- What `plan` reads of a `RoutePlanningContext`. -/
structure RoutePlanningContext where
  originNodeId : String
  destinationNodeId : String
  incidentNodeId : Option String
  originalVehicleWeightTons : ℚ
  activeVehicleWeightTons : ℚ
  deriving DecidableEq, Repr

def RoutePlanningContext.startNodeId (context : RoutePlanningContext) : String :=
  (text context.incidentNodeId).getD context.originNodeId

namespace RoutingService

def canPlan (v : RoutingService) : Bool := v.roadNetwork.isSome && v.hasPathFinder

/-! ### Routes of a provider -/

def memoryRoute (v : RoutingService) (memory : Option MemoryRecall) : Option String :=
  match memory, v.routeProvider with
  | some memory, some provider =>
    if memory.similarityScore < v.memoryAdoptionThreshold then none
    else provider.resolveRouteReference memory.historicalResolution
  | _, _ => none

def unsafeCurrent (currentRouteId roadCondition : String) (candidate : RouteCandidate) : Bool :=
  decide (candidate.routeId = currentRouteId ∧
    (roadCondition = "slippery" ∨ roadCondition = "closed"))

def score (currentRouteId roadCondition environmentRisk : String) (memoryRoute : Option String)
    (capacityStatus : CapacityStatus) (candidate : RouteCandidate) : RouteCandidate :=
  if unsafeCurrent currentRouteId roadCondition candidate then
    { candidate with
      riskLevel := if roadCondition = "slippery" then "high" else "critical"
      available := false
      reason := some "Current route is unsafe for the reported road condition."
      score := -1000 }
  else
    { candidate with
      score := 100 - candidate.distanceKm * 2 - candidate.estimatedMinutes * (1 / 10)
        - (if environmentRisk ∈ ["high", "critical"] ∧ candidate.riskLevel ∈ ["medium", "high"]
            then 15 else 0)
        + (if memoryRoute = some candidate.routeId then 30 else 0)
        - (if capacityStatus = .limited then 5 else 0) }

def reason (route : RouteCandidate) (roadCondition environmentRisk : String)
    (capacityStatus : CapacityStatus) (memory : Option MemoryRecall) : String :=
  let base := "Road condition is " ++ roadCondition ++ " with " ++ environmentRisk ++
    " environmental risk; capacity status is " ++ capacityStatus.text ++ "."
  match memory with
  | none =>
    base ++ " Recommended " ++ route.routeName ++ " by deterministic safety and distance score."
  | some memory =>
    base ++ " Recalled historical memory " ++ memory.memoryId ++ " at similarity " ++
      memory.similarityText ++ "; " ++ memory.historicalResolution ++ ". Recommended " ++
      route.routeName ++ "."

/-- The candidates of the provider, scored and from the best on. -/
def rankedRoutes (v : RoutingService) (provider : RouteProvider) (currentRouteId : String)
    (memory : Option MemoryRecall) (roadCondition environmentRisk : String)
    (capacityStatus : CapacityStatus) : List RouteCandidate :=
  (provider.candidates.map
    (score currentRouteId roadCondition environmentRisk (v.memoryRoute memory) capacityStatus)
    ).insertionSort fun a b => b.score ≤ a.score

def bestRoute (v : RoutingService) (provider : RouteProvider) (currentRouteId : String)
    (memory : Option MemoryRecall) (roadCondition environmentRisk : String)
    (capacityStatus : CapacityStatus) : Option RouteCandidate :=
  (v.rankedRoutes provider currentRouteId memory roadCondition environmentRisk capacityStatus).find?
    fun candidate => candidate.available

def route (v : RoutingService) (currentRouteId : String) (memoryResults : List MemoryRecall)
    (roadCondition environmentRisk : String) (capacityStatus : CapacityStatus) : RoutingResult :=
  if capacityStatus.closed then
    { decisionReason :=
        "Capacity status is " ++ capacityStatus.text ++ "; manual review is required." }
  else match v.routeProvider with
    | none => { decisionReason := "No route provider is configured." }
    | some provider =>
      let memory := memoryResults.head?
      let candidates := v.rankedRoutes provider currentRouteId memory roadCondition
        environmentRisk capacityStatus
      match v.bestRoute provider currentRouteId memory roadCondition environmentRisk
          capacityStatus with
      | none =>
        { candidateRoutes := candidates
          decisionReason := "No safe route is currently available." }
      | some recommended =>
        let adopted := memory.filter fun _ => v.memoryRoute memory = some recommended.routeId
        { candidateRoutes := candidates
          recommendedRoute := some recommended.routeId
          decision := if recommended.routeId = currentRouteId then .keepRoute else .reroute
          decisionReason := reason recommended roadCondition environmentRisk capacityStatus
            adopted
          memoryAdopted := adopted.isSome
          adoptedMemoryId := adopted.map MemoryRecall.memoryId
          requiresManualReview := false }

/-! ### Paths of the road network -/

/-- A normalised component of a path's score. -/
def normalized (single : Bool) (value maximum : ℚ) : Except GraphError ℚ :=
  if single then .ok 0
  else if maximum = 0 then .error .divisionByZero
  else .ok (divide value maximum)

/-- `_risk_level`. -/
def riskLevelText (riskCost : ℚ) : String :=
  if 12 ≤ riskCost then "high" else if 0 < riskCost then "medium" else "low"

def objectiveText : RouteObjective → String
  | .fastest => "FASTEST"
  | .shortest => "SHORTEST"
  | .safest => "SAFEST"

def pathRouteId (v : RoutingService) (edgeIds : List String) : String :=
  "RTE-" ++ String.ofList
    (((v.sha256 ("|".intercalate edgeIds)).toList.take 16).map Char.toUpper)

/-- One round of `_score_paths`. -/
def scorePath (v : RoutingService) (single : Bool) (maxMinutes maxDistance maxRisk : ℚ)
    (path : PathResult) : Except GraphError RouteCandidate := do
  let minutes ← normalized single path.estimatedMinutes maxMinutes
  let distance ← normalized single path.distanceKm maxDistance
  let risk := if single ∨ maxRisk = 0 then 0 else divide path.riskCost maxRisk
  return {
    routeId := v.pathRouteId path.edgeIds
    routeName := objectiveText path.objective ++ " route"
    distanceKm := path.distanceKm
    estimatedMinutes := path.estimatedMinutes
    riskLevel := riskLevelText path.riskCost
    available := true
    reason := none
    score := rounded (rounded (rounded (100 - rounded (minutes * 45)) - rounded (distance * 30))
      - rounded (risk * 25))
    edgeIds := path.edgeIds }

def scorePaths (v : RoutingService) (path : PathResult) (rest : List PathResult) :
    Except GraphError (List RouteCandidate) :=
  let maximum (f : PathResult → ℚ) : ℚ := (rest.map f).foldl max (f path)
  (path :: rest).mapM (v.scorePath rest.isEmpty (maximum fun p => p.estimatedMinutes)
    (maximum PathResult.distanceKm) (maximum PathResult.riskCost))

/-- `by_edges`: for every list of edges the first path along it. -/
def byEdges : List PathResult → List PathResult
  | [] => []
  | path :: rest => path :: (byEdges rest).filter fun other => other.edgeIds ≠ path.edgeIds

/-- The key of the best candidate. -/
def preference (candidate : RouteCandidate) : ℚ ×ₗ ℤ ×ₗ ℚ ×ₗ List String :=
  toLex (-candidate.score, toLex (candidate.estimatedMinutes,
    toLex (candidate.distanceKm, candidate.edgeIds)))

/-- `min`: the first one of the least key. -/
def preferred (candidate : RouteCandidate) (rest : List RouteCandidate) : RouteCandidate :=
  rest.foldl (fun best other => if preference other < preference best then other else best) candidate

/-- The affected edges, sorted and without repetition. -/
def blockedEdges (affectedEdgeIds : List String) : List String :=
  affectedEdgeIds.dedup.insertionSort (· ≤ ·)

/-- The network with the affected edges open. -/
def originalSnapshot (snapshot : RoadNetworkSnapshot) (blocked : List String) : RoadNetworkSnapshot :=
  snapshot.mapStatus fun edge => if edge.edgeId ∈ blocked then .open else edge.status

/-- The paths that are left, for every objective. -/
def remainingPaths (fuel : ℕ) (snapshot : RoadNetworkSnapshot) (context : RoutePlanningContext)
    (blocked : List String) : Except GraphError (List PathResult) := do
  let paths ← RouteObjective.all.mapM fun objective =>
    searched (find fuel snapshot context.startNodeId context.destinationNodeId objective
      context.activeVehicleWeightTons blocked)
  return paths.filterMap id

def planned (snapshot : RoadNetworkSnapshot) (blocked : List String)
    (originalPath : Option PathResult) (paths : List PathResult) (candidates : List RouteCandidate)
    (recommended : RouteCandidate) : RoutingResult where
  candidateRoutes := candidates
  recommendedRoute := some recommended.routeId
  decision :=
    if blocked ≠ [] ∨ ∃ path ∈ originalPath, path.edgeIds ≠ recommended.edgeIds then .reroute
    else .keepRoute
  decisionReason := "DIJKSTRA_V1 evaluated fastest, shortest, and safest paths using the fixed " ++
    "road-network snapshot."
  requiresManualReview := false
  originalPath := originalPath
  recommendedPath := paths.find? fun path => path.edgeIds = recommended.edgeIds
  blockedEdgeIds := blocked
  roadNetworkVersion := some snapshot.version
  roadNetworkEdges := snapshot.edges

def network (v : RoutingService) (roadNetworkSnapshot : Option RoadNetworkSnapshot) :
    Option RoadNetworkSnapshot :=
  if v.hasPathFinder then roadNetworkSnapshot <|> v.roadNetwork else none

def plan (v : RoutingService) (fuel : ℕ) (context : RoutePlanningContext)
    (capacityStatus : CapacityStatus) (affectedEdgeIds : List String)
    (roadNetworkSnapshot : Option RoadNetworkSnapshot) : Except GraphError RoutingResult :=
  match v.network roadNetworkSnapshot with
  | none => .ok { decisionReason := "Road network planning is not configured." }
  | some snapshot =>
    if capacityStatus.closed then
      .ok { decisionReason := "No vehicle is available for route planning." }
    else do
      let blocked := blockedEdges affectedEdgeIds
      let originalPath ← searched (find fuel (originalSnapshot snapshot blocked)
        context.originNodeId context.destinationNodeId .fastest context.originalVehicleWeightTons [])
      let paths ← remainingPaths fuel snapshot context blocked
      match byEdges paths with
      | [] => return {
          decisionReason := "No reachable route remains after excluding affected roads."
          noReachableRoute := true
          originalPath := originalPath
          blockedEdgeIds := blocked
          roadNetworkVersion := some snapshot.version
          roadNetworkEdges := snapshot.edges }
      | path :: rest =>
        match ← v.scorePaths path rest with
        | [] => throw (.valueError "min() arg is an empty sequence")
        | candidate :: others =>
          return planned snapshot blocked originalPath (path :: rest) (candidate :: others)
            (preferred candidate others)

end RoutingService

/-! ### The node -/

namespace GraphState

/-- `_planning_context`, for a state with an origin and a destination. -/
def planningContext (s : GraphState) (originNodeId destinationNodeId : String) :
    Except GraphError RoutePlanningContext :=
  match s.originalVehicleWeightTons <|> s.vehicleWeightTons with
  | none => .error (.valueError
      "original_vehicle_weight_tons is required for offline road-network planning")
  | some original => .ok {
      originNodeId := originNodeId
      destinationNodeId := destinationNodeId
      incidentNodeId := s.incidentNodeId
      originalVehicleWeightTons := original
      activeVehicleWeightTons :=
        (s.activeVehicleWeightTons <|> s.selectedVehicleGrossWeightTons).getD original }

/-- `state["capacity_state"]["capacity_status"]`. -/
def requiredCapacityStatus (s : GraphState) : Except GraphError CapacityStatus :=
  match s.capacityState with
  | none => .error (.keyError "capacity_state")
  | some capacity => .ok capacity.capacityStatus

/-- `state.get("capacity_state", {}).get("capacity_status")`. -/
def capacityStatus (s : GraphState) : Option CapacityStatus :=
  s.capacityState.map CapacityState.capacityStatus

def issueCategory (s : GraphState) : IssueCategory :=
  normalizeCategory s.anomalyType (describedAnomaly s.anomalyDescription)

def reassignedBreakdown (s : GraphState) : Bool :=
  decide (s.issueCategory = .vehicleBreakdown ∧ s.capacityStatus = some .reassigned)

def actionOnly (s : GraphState) : Bool := s.issueCategory.nonRoute && !s.reassignedBreakdown

/-- What `recommend` answers for a result of the routing service. -/
def recommendation (s : GraphState) (result : RoutingResult) : IssueRecommendation :=
  recommend s.anomalyType s.anomalyDescription (s.vehicleStatus.map VehicleRuntimeStatus.text)
    s.environmentRisk (s.capacityStatus.map CapacityStatus.text) result.candidateRoutes
    result.recommendedRoute

def finalRoute (s : GraphState) (result : RoutingResult) : Option String :=
  if s.reassignedBreakdown then result.recommendedRoute
  else (s.recommendation result).recommendedRoute

/-- `requires_manual_review` of `_recommendation_patch`. -/
def needsReview (s : GraphState) (result : RoutingResult) : Bool :=
  result.requiresManualReview || s.actionOnly ||
    decide (result.decision = .reroute ∧ s.finalRoute result = none)

/-- `_recommendation_patch`. -/
def recommended (s : GraphState) (result : RoutingResult) : GraphState :=
  { s with
    recommendedRoute := s.finalRoute result
    identifiedIssue := some (s.recommendation result).issueCategory.text
    issueSubtype := some (s.recommendation result).issueSubtype
    recommendedAction := some (s.recommendation result).recommendedAction
    analysisMode := some (s.recommendation result).analysisMode
    decision := some (if s.needsReview result then .manualReview else result.decision)
    decisionReason := some ((s.recommendation result).analysisReason ++ " 路由依据：" ++
      result.decisionReason)
    memoryAdopted := some result.memoryAdopted
    adoptedMemoryId := result.adoptedMemoryId
    requiresManualReview := some (s.needsReview result) }

/-- What `routing_node` adds for a plan. -/
def withPlan (s : GraphState) (result : RoutingResult) : GraphState :=
  { s with
    errorCode := if result.noReachableRoute then some .noReachableRoute else s.errorCode
    errorMessage :=
      if result.noReachableRoute then some "排除受影响道路后不存在可达配送路线，请人工复核。"
      else s.errorMessage
    blockedEdgeIds := result.blockedEdgeIds
    originalPath := result.originalPath
    recommendedPath := result.recommendedPath
    routingAlgorithm := some "DIJKSTRA_V1"
    roadNetworkVersion := result.roadNetworkVersion
    roadNetworkEdges := result.roadNetworkEdges }

end GraphState

/-- The ends of the way that `routing_node` plans, when it plans at all. -/
def RoutingService.planningEnds (v : RoutingService) (s : GraphState) : Option (String × String) :=
  if v.canPlan then
    match text s.originNodeId, text s.destinationNodeId with
    | some origin, some destination => some (origin, destination)
    | _, _ => none
  else none

/-- What the routing service answers in `routing_node`; `restores` says whether there is a snapshot
service. -/
def RoutingService.answer (v : RoutingService) (restores : Bool) (fuel : ℕ) (s : GraphState) :
    Except GraphError RoutingResult :=
  match v.planningEnds s with
  | some (origin, destination) => do
      let context ← s.planningContext origin destination
      let status ← s.requiredCapacityStatus
      v.plan fuel context status s.affectedEdgeIds (if restores then s.roadNetworkSnapshot else none)
  | none => do
      let status ← s.requiredCapacityStatus
      return v.route s.routeId s.memoryResults (s.roadCondition.getD "unknown")
        (s.environmentRisk.getD "elevated") status

def routingNode (service : Option RoutingService) (restores : Bool) (fuel : ℕ) (s : GraphState) :
    Except GraphError GraphState :=
  match service with
  | none => .ok s
  | some v => do
      let result ← v.answer restores fuel s
      return if (v.planningEnds s).isSome then (s.recommended result).withPlan result
        else s.recommended result

end CountyFlow.Graph
