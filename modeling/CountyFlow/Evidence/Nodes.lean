import CountyFlow.Evidence.RealRoads

/-!
# The states that reach the dispatch node

Patches of the nodes, as far as `dispatch_node` reads them as evidence, and the states they lead to.
`Shows` says what is behind the evidence of a state; `Reaches.shows` is the invariant: whatever the nodes
wrote, there are vehicles, routes, paths and roads behind it, and a state with an eligible vehicle holds
the pickup route of the first one.
-/

namespace CountyFlow.Evidence

open CountyFlow.Core

/-! ### Patches -/

/-- The keys of a state that `dispatch_node` reads as evidence. -/
def evidenceKeys : List String :=
  ["candidate_vehicles", "pickup_route", "routing_algorithm", "road_network_version",
    "blocked_edge_ids", "original_path", "recommended_path", "road_network_nodes",
    "road_network_edges", "real_road_route", "candidate_routes", "distance_delta_km",
    "eta_delta_minutes", "routing_status"]

/-- What `intake_node` writes of a sandtable task. -/
def intakePatch (affectedEdgeIds : List String) (roadNetworkVersion : ℤ) : State :=
  [("blocked_edge_ids", texts affectedEdgeIds),
    ("road_network_version", .int roadNetworkVersion)]

/-- What `capacity_node` writes of an allocation: the pickup route only of a selected vehicle. -/
def capacityPatch (result : FleetAllocationResult) : State :=
  match result.selected with
  | none => [("candidate_vehicles", .list (result.candidates.map candidateToState))]
  | some selected =>
    [("candidate_vehicles", .list (result.candidates.map candidateToState)),
      ("pickup_route", pathToState selected.pickupRoute)]

/-- A path of the road network with the numbers that `_score_paths` finds for it. -/
structure ScoredPath where
  path : PathResult
  components : RouteScoreComponents
  score : Decimal
  deriving DecidableEq, Repr

/-- `_risk_level`, by what the cost is compared with. -/
def riskLevelText (riskCost : Decimal) : String :=
  let exponent := min riskCost.exponent 0
  let cost := riskCost.atExponent exponent
  if 12 * 10 ^ (-exponent).toNat ≤ cost then "high" else if 0 < cost then "medium" else "low"

/-- The id of the route along some edges; `sha256` is the digest in hexadecimal. -/
def pathRouteId (sha256 : String → String) (edgeIds : List String) : String :=
  "RTE-" ++ String.ofList
    (((sha256 ("|".intercalate edgeIds)).toList.take 16).map Char.toUpper)

/-- The candidate that `_score_paths` makes of a path. -/
def ScoredPath.candidate (sha256 : String → String) (roadNetworkVersion : ℤ) (scored : ScoredPath) :
    RouteCandidate where
  routeId := pathRouteId sha256 scored.path.edgeIds
  routeName := objectiveValue scored.path.objective ++ " route"
  distanceKm := scored.path.distanceKm
  estimatedMinutes := scored.path.estimatedMinutes
  riskLevel := riskLevelText scored.path.riskCost
  available := true
  reason := none
  score := scored.score
  nodeIds := scored.path.nodeIds
  edgeIds := scored.path.edgeIds
  objective := some (objectiveValue scored.path.objective)
  algorithmVersion := some "DIJKSTRA_V1"
  scoringFormula := some "ROUTE_SCORE_V1"
  roadNetworkVersion := some roadNetworkVersion
  visitedNodeCount := some scored.path.visitedNodeCount
  riskCost := some scored.path.riskCost
  scoreComponents := some scored.components

/-- What `plan` answers, as far as it becomes evidence. -/
structure PlanResult where
  candidateRoutes : List RouteCandidate
  routingStatus : String
  originalPath : Option PathResult
  recommendedPath : Option PathResult
  blockedEdgeIds : List String
  roadNetworkVersion : Option ℤ
  roadNetworkNodes : List RoadNodeSnapshot
  roadNetworkEdges : List RoadEdgeSnapshot
  deriving DecidableEq, Repr

/-- The four results of `plan`: without a network or a vehicle, without a way, and with scored paths one
of which is recommended. -/
inductive PlanResult.Answered (sha256 : String → String) : PlanResult → Prop
  | manual : Answered sha256 ⟨[], "MANUAL_REVIEW", none, none, [], none, [], []⟩
  | unreachable (originalPath : Option PathResult) (blocked : List String) (version : ℤ)
      (nodes : List RoadNodeSnapshot) (edges : List RoadEdgeSnapshot) :
      Answered sha256 ⟨[], "NO_REACHABLE_ROUTE", originalPath, none, blocked, some version, nodes, edges⟩
  | routed (originalPath : Option PathResult) (scored : List ScoredPath) (recommended : ScoredPath)
      (blocked : List String) (version : ℤ) (nodes : List RoadNodeSnapshot)
      (edges : List RoadEdgeSnapshot) (hmem : recommended ∈ scored) :
      Answered sha256 ⟨scored.map (ScoredPath.candidate sha256 version), "ROUTED", originalPath,
        some recommended.path, blocked, some version, nodes, edges⟩

def recommendedToState : Option PathResult → Value
  | none => .none
  | some path => .dict ((pathEntries path).set "scoring_formula" (.str "ROUTE_SCORE_V1"))

namespace PlanResult

def distanceDeltaKm (result : PlanResult) : Option String :=
  match result.recommendedPath, result.originalPath with
  | some recommended, some original =>
    some (recommended.distanceKm.sub original.distanceKm).str
  | _, _ => none

def etaDeltaMinutes (result : PlanResult) : Option ℤ :=
  match result.recommendedPath, result.originalPath with
  | some recommended, some original =>
    some (recommended.estimatedMinutes - original.estimatedMinutes)
  | _, _ => none

/-- What `routing_node` writes of a plan before it asks for real roads. -/
def patch (result : PlanResult) : State :=
  [("candidate_routes", .list (result.candidateRoutes.map routeCandidateToState)),
    ("blocked_edge_ids", texts result.blockedEdgeIds),
    ("original_path", pathToState result.originalPath),
    ("recommended_path", recommendedToState result.recommendedPath),
    ("routing_algorithm", .str "DIJKSTRA_V1"),
    ("routing_status", .str result.routingStatus),
    ("road_network_version", ofInt result.roadNetworkVersion),
    ("distance_delta_km", ofText result.distanceDeltaKm),
    ("eta_delta_minutes", ofInt result.etaDeltaMinutes),
    ("road_network_nodes", .list (result.roadNetworkNodes.map nodeToState)),
    ("road_network_edges", .list (result.roadNetworkEdges.map edgeToState))]

/-- What `routing_node` writes of a plan; without an `answer` there is no service for real roads, and
`none` is a `ValueError` of that service. -/
def planPatch (result : PlanResult) (answer : Option DrivingAnswer) : Option State :=
  match result.recommendedPath, answer with
  | some path, some answer =>
    (RealRoadRoute.plan answer path.nodeIds).map fun route =>
      result.patch ++ [("real_road_route", realRoadRouteToState route)]
  | _, _ => some result.patch

end PlanResult

/-- What `routing_node` writes of the scored routes of a provider. -/
def routePatch (candidates : List RouteCandidate) : State :=
  [("candidate_routes", .list (candidates.map routeCandidateToState))]

/-- The evidence in the patch of a node. -/
inductive NodeWrites (sha256 : String → String) : State → Prop
  | nothing : NodeWrites sha256 []
  | intake (affectedEdgeIds : List String) (version : ℤ) :
      NodeWrites sha256 (intakePatch affectedEdgeIds version)
  | capacity (result : FleetAllocationResult) : NodeWrites sha256 (capacityPatch result)
  | plan (result : PlanResult) (answer : Option DrivingAnswer) (patch : State)
      (hresult : result.Answered sha256) (hpatch : result.planPatch answer = some patch) :
      NodeWrites sha256 patch
  | route (candidates : List RouteCandidate) : NodeWrites sha256 (routePatch candidates)

def VehicleTyped (s : State) : Prop := ∃ vehicleId, s.getOr "vehicle_id" .none = ofText vehicleId

/-- The states that the nodes lead to from a task without evidence: every node adds its evidence and
any other keys. -/
inductive Reaches (sha256 : String → String) : State → Prop
  | start (s : State) (h : ∀ key ∈ evidenceKeys, s.lookup key = none) (htyped : VehicleTyped s) :
      Reaches sha256 s
  | node (s patch rest : State) (hs : Reaches sha256 s) (hpatch : NodeWrites sha256 patch)
      (hkeys : ∀ key ∈ evidenceKeys, key ∉ rest.map Prod.fst) (hrest : (rest.map Prod.fst).Nodup)
      (htyped : VehicleTyped rest) : Reaches sha256 ((s.update patch).update rest)

/-! ### What is behind the evidence -/

/-- What the evidence of a state was written from. -/
structure Behind where
  vehicles : FleetAllocationResult
  pickupRoute : Option PathResult
  routes : List RouteCandidate
  originalPath : Option PathResult
  recommendedPath : Option PathResult
  nodes : List RoadNodeSnapshot
  edges : List RoadEdgeSnapshot
  realRoad : Option RealRoadRoute
  distanceDeltaKm : Option String
  etaDeltaMinutes : Option ℤ

structure Shows (s : State) (b : Behind) : Prop where
  vehicles : s.getOr "candidate_vehicles" (.list []) =
    .list (b.vehicles.candidates.map candidateToState)
  pickupRoute : s.getOr "pickup_route" .none = pathToState b.pickupRoute
  pickup_of_selected : ∀ selected, b.vehicles.selected = some selected →
    b.pickupRoute = selected.pickupRoute
  routes : s.getOr "candidate_routes" (.list []) = .list (b.routes.map routeCandidateToState)
  originalPath : s.getOr "original_path" .none = pathToState b.originalPath
  recommendedPath : s.getOr "recommended_path" .none = recommendedToState b.recommendedPath
  nodes : s.getOr "road_network_nodes" (.list []) = .list (b.nodes.map nodeToState)
  edges : s.getOr "road_network_edges" (.list []) = .list (b.edges.map edgeToState)
  realRoad : s.getOr "real_road_route" .none =
    (b.realRoad.map realRoadRouteToState).getD .none
  realRoad_planned : ∀ route, b.realRoad = some route → route.Planned
  distanceDeltaKm : s.getOr "distance_delta_km" .none = ofText b.distanceDeltaKm
  etaDeltaMinutes : s.getOr "eta_delta_minutes" .none = ofInt b.etaDeltaMinutes

def Behind.nothing : Behind where
  vehicles := ⟨[], List.nodup_nil⟩
  pickupRoute := none
  routes := []
  originalPath := none
  recommendedPath := none
  nodes := []
  edges := []
  realRoad := none
  distanceDeltaKm := none
  etaDeltaMinutes := none

theorem Shows.congr {s t : State} {b : Behind} (h : Shows s b)
    (hst : ∀ key ∈ evidenceKeys, ∀ default, t.getOr key default = s.getOr key default) : Shows t b where
  vehicles := by rw [hst _ (by decide), h.vehicles]
  pickupRoute := by rw [hst _ (by decide), h.pickupRoute]
  pickup_of_selected := h.pickup_of_selected
  routes := by rw [hst _ (by decide), h.routes]
  originalPath := by rw [hst _ (by decide), h.originalPath]
  recommendedPath := by rw [hst _ (by decide), h.recommendedPath]
  nodes := by rw [hst _ (by decide), h.nodes]
  edges := by rw [hst _ (by decide), h.edges]
  realRoad := by rw [hst _ (by decide), h.realRoad]
  realRoad_planned := h.realRoad_planned
  distanceDeltaKm := by rw [hst _ (by decide), h.distanceDeltaKm]
  etaDeltaMinutes := by rw [hst _ (by decide), h.etaDeltaMinutes]

theorem shows_nothing {s : State} (h : ∀ key ∈ evidenceKeys, s.lookup key = none) : Shows s .nothing := by
  have hget : ∀ key ∈ evidenceKeys, ∀ default, s.getOr key default = State.getOr [] key default := by
    intro key hkey default
    unfold State.getOr
    rw [h key hkey]
    rfl
  apply Shows.congr (s := []) ?_ hget
  exact ⟨rfl, rfl, fun _ h => (by cases h), rfl, rfl, rfl, rfl, rfl, rfl, fun _ h => (by cases h),
    rfl, rfl⟩

/-! ### One lemma for each patch -/

variable {sha256 : String → String} {s : State} {b : Behind}

theorem Shows.intake (h : Shows s b) (affectedEdgeIds : List String) (version : ℤ) :
    Shows (s.update (intakePatch affectedEdgeIds version)) b := by
  have hnodup : ((intakePatch affectedEdgeIds version).map Prod.fst).Nodup := by
    simp [intakePatch]
  constructor
  all_goals first
    | exact h.pickup_of_selected
    | exact h.realRoad_planned
    | rw [State.getOr_update s _ hnodup]
  all_goals simp [intakePatch, h.vehicles, h.pickupRoute, h.routes, h.originalPath,
    h.recommendedPath, h.nodes, h.edges, h.realRoad, h.distanceDeltaKm, h.etaDeltaMinutes]

theorem Shows.capacity (h : Shows s b) (result : FleetAllocationResult) :
    Shows (s.update (capacityPatch result)) { b with
      vehicles := result
      pickupRoute := match result.selected with
        | none => b.pickupRoute
        | some selected => selected.pickupRoute } := by
  have hnodup : ((capacityPatch result).map Prod.fst).Nodup := by
    unfold capacityPatch
    split <;> simp
  constructor
  case pickup_of_selected =>
    intro selected hselected
    simp [show result.selected = some selected from hselected]
  case realRoad_planned => exact h.realRoad_planned
  all_goals rw [State.getOr_update s _ hnodup]
  all_goals
    unfold capacityPatch
    cases result.selected
  all_goals simp [State.getOr_cons, h.pickupRoute, h.routes, h.originalPath, h.recommendedPath,
    h.nodes, h.edges, h.realRoad, h.distanceDeltaKm, h.etaDeltaMinutes]

theorem Shows.route (h : Shows s b) (candidates : List RouteCandidate) :
    Shows (s.update (routePatch candidates)) { b with routes := candidates } := by
  have hnodup : ((routePatch candidates).map Prod.fst).Nodup := by
    simp [routePatch]
  constructor
  case pickup_of_selected => exact h.pickup_of_selected
  case realRoad_planned => exact h.realRoad_planned
  all_goals rw [State.getOr_update s _ hnodup]
  all_goals simp [routePatch, State.getOr_cons, h.vehicles, h.pickupRoute, h.originalPath,
    h.recommendedPath, h.nodes, h.edges, h.realRoad, h.distanceDeltaKm, h.etaDeltaMinutes]

theorem Shows.plan (h : Shows s b) (result : PlanResult) (road : Option RealRoadRoute)
    (hroad : ∀ route, road = some route → route.Planned) :
    Shows (s.update (result.patch ++
        (road.map fun route => ("real_road_route", realRoadRouteToState route)).toList)) {
      vehicles := b.vehicles
      pickupRoute := b.pickupRoute
      routes := result.candidateRoutes
      originalPath := result.originalPath
      recommendedPath := result.recommendedPath
      nodes := result.roadNetworkNodes
      edges := result.roadNetworkEdges
      realRoad := road <|> b.realRoad
      distanceDeltaKm := result.distanceDeltaKm
      etaDeltaMinutes := result.etaDeltaMinutes } := by
  have hnodup : ((result.patch ++
      (road.map fun route => ("real_road_route", realRoadRouteToState route)).toList).map
        Prod.fst).Nodup := by
    cases road <;> simp [PlanResult.patch]
  constructor
  case pickup_of_selected => exact h.pickup_of_selected
  case realRoad_planned =>
    cases road with
    | none => exact h.realRoad_planned
    | some route => exact hroad
  all_goals rw [State.getOr_update s _ hnodup]
  all_goals
    cases road
  all_goals simp [PlanResult.patch, State.getOr_cons, h.vehicles, h.pickupRoute, h.realRoad]

theorem NodeWrites.keys {patch : State} (h : NodeWrites sha256 patch) :
    (patch.map Prod.fst).Nodup ∧ ∀ key ∈ patch.map Prod.fst, key ∈ evidenceKeys := by
  cases h with
  | nothing => exact ⟨List.nodup_nil, by simp⟩
  | intake affectedEdgeIds version => simp [intakePatch, evidenceKeys]
  | capacity result =>
    unfold capacityPatch
    split <;> simp [evidenceKeys]
  | route candidates => simp [routePatch, evidenceKeys]
  | plan result answer _ hresult hpatch =>
    unfold PlanResult.planPatch at hpatch
    split at hpatch
    · obtain ⟨route, -, rfl⟩ := Option.map_eq_some_iff.mp hpatch
      simp [PlanResult.patch, evidenceKeys]
    · cases hpatch
      simp [PlanResult.patch, evidenceKeys]

theorem Shows.writes (h : Shows s b) {patch : State} (hpatch : NodeWrites sha256 patch) :
    ∃ b', Shows (s.update patch) b' := by
  cases hpatch with
  | nothing => exact ⟨b, h⟩
  | intake affectedEdgeIds version => exact ⟨_, h.intake affectedEdgeIds version⟩
  | capacity result => exact ⟨_, h.capacity result⟩
  | route candidates => exact ⟨_, h.route candidates⟩
  | plan result answer _ hresult hpatch =>
    unfold PlanResult.planPatch at hpatch
    split at hpatch
    · obtain ⟨route, hroute, rfl⟩ := Option.map_eq_some_iff.mp hpatch
      refine ⟨_, h.plan result (some route) fun _ hsome => ?_⟩
      cases hsome
      exact RealRoadRoute.plan_planned hroute
    · cases hpatch
      have hplan := h.plan result none fun _ hsome => by cases hsome
      rw [Option.map_none, Option.toList_none, List.append_nil] at hplan
      exact ⟨_, hplan⟩

theorem Reaches.shows (hs : Reaches sha256 s) : ∃ b, Shows s b := by
  induction hs with
  | start s h _ => exact ⟨_, shows_nothing h⟩
  | node s patch rest _ hpatch hkeys hrest _ ih =>
    obtain ⟨b, hb⟩ := ih
    obtain ⟨b', hb'⟩ := hb.writes hpatch
    refine ⟨b', hb'.congr fun key hkey default => ?_⟩
    rw [State.getOr_update _ _ hrest, if_neg (hkeys key hkey)]

theorem Reaches.vehicleTyped (hs : Reaches sha256 s) : VehicleTyped s := by
  induction hs with
  | start s _ htyped => exact htyped
  | node s patch rest _ hpatch _ hrest htyped ih =>
    obtain ⟨hnodup, hkeys⟩ := hpatch.keys
    have hkept : "vehicle_id" ∉ patch.map Prod.fst := fun hmem => by
      have := hkeys _ hmem
      simp [evidenceKeys] at this
    unfold VehicleTyped
    rw [State.getOr_update _ _ hrest]
    split
    · exact htyped
    · rw [State.getOr_update _ _ hnodup, if_neg hkept]
      exact ih

end CountyFlow.Evidence
