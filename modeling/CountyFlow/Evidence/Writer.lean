import CountyFlow.Core.Schema

/-!
# The evidence that a dispatch stores

`dispatch_node` hands the evidence of the graph state to `DispatchService.execute`, and `_execute_once`
stores it compacted in two rows: only known keys are kept, a text that is empty or no text becomes
`None`, a number becomes its text.
-/

namespace CountyFlow.Evidence

open CountyFlow.Core

/-! ### Reading loosely typed values -/

/-- `item if isinstance(item, str) and item else None`. -/
def nonEmptyText : Value → Value
  | .str s => if s = "" then .none else .str s
  | _ => .none

def text (value : Value) (key : String) : Value := nonEmptyText (value.get key)

def integer : Value → Value
  | .int z => .int z
  | _ => .none

/-- `_number_text`; no node puts a container where a number is expected, and its text is left open. -/
def numberText : Value → Value
  | .none => .none
  | .str s => .str s
  | .int z => .str (toString z)
  | .num text => .str text
  | .bool b => .str (if b then "True" else "False")
  | _ => .object "str(container)"

/-- `isinstance(value, str)`. -/
def isText : Value → Bool
  | .str _ => true
  | _ => false

def stringList (value : Value) : Value := .list (value.items.filter isText)

/-- `value is True`. -/
def isTrue (value : Value) : Value := .bool (value = .bool true)

/-- `value if isinstance(value, bool) else None`. -/
def flag : Value → Value
  | .bool b => .bool b
  | _ => .none

/-- `{key: _number_text(components.get(key)) for key in keys if components.get(key) is not None}`. -/
def compactComponents (keys : List String) (components : Value) : Value :=
  .dict ((keys.filter fun key => components.get key ≠ .none).map fun key =>
    (key, numberText (components.get key)))

def compactItems (compact : Value → Value) (value : Value) : Value :=
  .list ((value.items.filter Value.isDict).map compact)

/-! ### Compaction -/

def compactPath (value : Value) : Value :=
  if value.isDict then
    .dict [
      ("objective", text value "objective"),
      ("node_ids", stringList (value.get "node_ids")),
      ("edge_ids", stringList (value.get "edge_ids")),
      ("distance_km", numberText (value.get "distance_km")),
      ("estimated_minutes", integer (value.get "estimated_minutes")),
      ("risk_cost", numberText (value.get "risk_cost")),
      ("visited_node_count", integer (value.get "visited_node_count")),
      ("scoring_formula", text value "scoring_formula")]
  else .none

/-- `allowed_component_keys`. -/
def fleetComponentKeys : List String :=
  ["eta_penalty", "distance_penalty", "load_penalty", "road_risk_penalty", "same_station_bonus",
    "cargo_exact_match_bonus"]

/-- `_compact_selected_candidate`, its entries. -/
def selectedEntries (candidate : Value) : State :=
  [("vehicle_id", text candidate "vehicle_id"),
    ("driver_id", text candidate "driver_id"),
    ("vehicle_status", text candidate "vehicle_status"),
    ("driver_status", text candidate "driver_status"),
    ("remaining_capacity_kg", numberText
      (if candidate.get "remaining_capacity_kg" = .none then candidate.get "remaining_load_kg"
        else candidate.get "remaining_capacity_kg")),
    ("cargo_capability", text candidate "cargo_capability"),
    ("score", numberText (candidate.get "score")),
    ("score_components", compactComponents fleetComponentKeys (candidate.get "score_components")),
    ("eligible", isTrue (candidate.get "eligible")),
    ("exclusion_reasons", stringList (candidate.get "exclusion_reasons"))]

def compactSelectedCandidate (candidate : Value) : Value := .dict (selectedEntries candidate)

def compactVehicleCandidate (candidate : Value) : Value :=
  .dict ((selectedEntries candidate).update [
    ("gross_weight_tons", numberText (candidate.get "gross_weight_tons")),
    ("pickup_route", compactPath (candidate.get "pickup_route")),
    ("pickup_distance_km", numberText (candidate.get "pickup_distance_km")),
    ("pickup_eta_minutes", integer (candidate.get "pickup_eta_minutes")),
    ("scoring_formula", text candidate "scoring_formula")])

/-- The entries of `_compact_fleet_evidence`. -/
def fleetEntries (candidates : List Value) (originalVehicleId selectedVehicleId : Value) : State :=
  let selected := (candidates.find? fun candidate =>
    text candidate "vehicle_id" = selectedVehicleId).getD .none
  [("original_vehicle_id", originalVehicleId),
    ("target_vehicle_id", selectedVehicleId),
    ("target_driver_id", text selected "driver_id"),
    ("vehicle_reassigned",
      .bool (selectedVehicleId ≠ .none ∧ selectedVehicleId ≠ originalVehicleId)),
    ("pickup_route", compactPath (selected.get "pickup_route")),
    ("selected_candidate",
      if selected = .none then .none else compactSelectedCandidate selected),
    ("candidates", .list (candidates.map compactVehicleCandidate))]

def compactFleetEvidence (candidates : List Value) (originalVehicleId selectedVehicleId : Value) :
    Value := .dict (fleetEntries candidates originalVehicleId selectedVehicleId)

/-- `component_keys`. -/
def routeComponentKeys : List String :=
  ["normalized_minutes", "normalized_distance", "normalized_risk", "time_penalty",
    "distance_penalty", "risk_penalty"]

def compactRouteCandidate (route : Value) : Value :=
  .dict [
    ("route_id", text route "route_id"),
    ("route_name", text route "route_name"),
    ("objective", text route "objective"),
    ("node_ids", stringList (route.get "node_ids")),
    ("edge_ids", stringList (route.get "edge_ids")),
    ("distance_km", numberText (route.get "distance_km")),
    ("estimated_minutes", integer (route.get "estimated_minutes")),
    ("risk_level", text route "risk_level"),
    ("risk_cost", numberText (route.get "risk_cost")),
    ("visited_node_count", integer (route.get "visited_node_count")),
    ("available", flag (route.get "available")),
    ("reason", text route "reason"),
    ("score", numberText (route.get "score")),
    ("score_components", compactComponents routeComponentKeys (route.get "score_components")),
    ("scoring_formula", text route "scoring_formula"),
    ("algorithm_version", text route "algorithm_version"),
    ("road_network_version", integer (route.get "road_network_version"))]

/-- One item of `_compact_network_nodes`. -/
def compactNetworkNode (node : Value) : Value :=
  .dict [
    ("node_id", text node "node_id"),
    ("name", text node "name"),
    ("x_km", numberText (node.get "x_km")),
    ("y_km", numberText (node.get "y_km")),
    ("node_type", text node "node_type")]

/-- One item of `_compact_network_edges`. -/
def compactNetworkEdge (edge : Value) : Value :=
  .dict [
    ("edge_id", text edge "edge_id"),
    ("name", text edge "name"),
    ("from_node_id", text edge "from_node_id"),
    ("to_node_id", text edge "to_node_id"),
    ("distance_km", numberText (edge.get "distance_km")),
    ("base_minutes", integer (edge.get "base_minutes")),
    ("road_level", text edge "road_level"),
    ("risk_level", text edge "risk_level"),
    ("status", text edge "status"),
    ("congestion_factor", numberText (edge.get "congestion_factor")),
    ("weight_limit_tons", numberText (edge.get "weight_limit_tons")),
    ("bidirectional", isTrue (edge.get "bidirectional")),
    ("version", integer (edge.get "version"))]

def compactRelevantEdges (value : Value) (relevantEdgeIds : List Value) : Value :=
  .list ((value.items.filter fun edge => edge.isDict && text edge "edge_id" ∈ relevantEdgeIds).map
    fun edge => .dict [
      ("edge_id", text edge "edge_id"),
      ("from_node_id", text edge "from_node_id"),
      ("to_node_id", text edge "to_node_id"),
      ("status", text edge "status"),
      ("bidirectional", isTrue (edge.get "bidirectional"))])

/-- One item of `_compact_geo_points`. -/
def compactGeoPoint (point : Value) : Value :=
  .dict [
    ("node_id", text point "node_id"),
    ("longitude", text point "longitude"),
    ("latitude", text point "latitude")]

def compactRealRoadRoute (value : Value) : Value :=
  if value.isDict then
    .dict [
      ("provider", text value "provider"),
      ("source", text value "source"),
      ("status", text value "status"),
      ("coordinate_system", text value "coordinate_system"),
      ("mapping_version", text value "mapping_version"),
      ("distance_meters", integer (value.get "distance_meters")),
      ("duration_seconds", integer (value.get "duration_seconds")),
      ("waypoints", compactItems compactGeoPoint (value.get "waypoints")),
      ("polyline", compactItems compactGeoPoint (value.get "polyline")),
      ("fallback_reason", text value "fallback_reason")]
  else .none

/-- The entries of `_compact_route_evidence`. -/
def routeEntries (source : Value) (originalRouteId targetRouteId : Value) : State :=
  let originalPath := compactPath (source.get "original_path")
  let recommendedPath := compactPath (source.get "recommended_path")
  let pickupPath := compactPath
    (if source.get "pickup_path" = .none then source.get "pickup_route" else source.get "pickup_path")
  let blockedEdgeIds := stringList (source.get "blocked_edge_ids")
  let relevantEdgeIds := blockedEdgeIds.items ++
    [originalPath, recommendedPath, pickupPath].flatMap fun path => (path.get "edge_ids").items
  [("original_route_id", originalRouteId),
    ("target_route_id", targetRouteId),
    ("original_path", originalPath),
    ("recommended_path", recommendedPath),
    ("pickup_path", pickupPath),
    ("blocked_edge_ids", blockedEdgeIds),
    ("distance_delta_km", numberText (source.get "distance_delta_km")),
    ("eta_delta_minutes", integer (source.get "eta_delta_minutes")),
    ("visited_node_count", recommendedPath.get "visited_node_count"),
    ("routing_status", text source "routing_status"),
    ("relevant_edges", compactRelevantEdges (source.get "road_network_edges") relevantEdgeIds),
    ("network_nodes", compactItems compactNetworkNode (source.get "road_network_nodes")),
    ("network_edges", compactItems compactNetworkEdge (source.get "road_network_edges")),
    ("real_road_route", compactRealRoadRoute (source.get "real_road_route")),
    ("candidate_routes", compactItems compactRouteCandidate (source.get "candidate_routes"))]

def compactRouteEvidence (source : Value) (originalRouteId targetRouteId : Value) : Value :=
  .dict (routeEntries source originalRouteId targetRouteId)

/-! ### The dispatch -/

/-- `DispatchEvidence`. -/
structure EvidenceRow where
  evidenceType : String
  algorithmVersion : Value
  payloadJson : Value
  roadNetworkVersion : Value
  deriving DecidableEq

/-- A stored dispatch, as far as its evidence is read with it. -/
structure StoredDispatch where
  originalVehicleId : Value
  targetVehicleId : Value
  targetDriverId : Value
  evidence : List EvidenceRow
  deriving DecidableEq

/-- What `dispatch_node` hands to the service, as far as it is stored with the evidence. -/
structure DispatchCall where
  originalRouteId : Value
  targetRouteId : Value
  originalVehicleId : Value
  candidateVehicles : List Value
  fleetEvidence : Value
  routeEvidence : Value

/-- The call of `dispatch_node`. -/
def dispatchCall (s : State) : DispatchCall where
  originalRouteId := s.get "route_id"
  targetRouteId := s.get "recommended_route"
  originalVehicleId :=
    if s.get "original_vehicle_weight_tons" = .none then .none else s.get "vehicle_id"
  candidateVehicles := (s.getOr "candidate_vehicles" (.list [])).items
  fleetEvidence := .dict [
    ("algorithm_version", .str "FLEET_SCORE_V1"),
    ("candidates", s.getOr "candidate_vehicles" (.list [])),
    ("pickup_route", s.getOr "pickup_route" .none)]
  routeEvidence := .dict [
    ("algorithm_version", s.getOr "routing_algorithm" (.str "DIJKSTRA_V1")),
    ("road_network_version", s.getOr "road_network_version" .none),
    ("blocked_edge_ids", s.getOr "blocked_edge_ids" (.list [])),
    ("original_path", s.getOr "original_path" .none),
    ("recommended_path", s.getOr "recommended_path" .none),
    ("pickup_route", s.getOr "pickup_route" .none),
    ("road_network_nodes", s.getOr "road_network_nodes" (.list [])),
    ("road_network_edges", s.getOr "road_network_edges" (.list [])),
    ("real_road_route", s.getOr "real_road_route" .none),
    ("candidate_routes", s.getOr "candidate_routes" (.list [])),
    ("distance_delta_km", s.getOr "distance_delta_km" .none),
    ("eta_delta_minutes", s.getOr "eta_delta_minutes" .none),
    ("routing_status", s.getOr "routing_status" .none)]

def algorithmVersion (evidence : Value) (default : String) : Value :=
  match text evidence "algorithm_version" with
  | .str version => .str version
  | _ => .str default

def rankedEligibleCandidates (candidates : List Value) : List Value :=
  candidates.filter fun candidate => candidate.get "eligible" = .bool true

/-- The candidates that `execute` tries, `None` for a dispatch without a new vehicle. -/
def attempts (call : DispatchCall) : List Value :=
  if rankedEligibleCandidates call.candidateVehicles = [] then [.none]
  else (rankedEligibleCandidates call.candidateVehicles).take 2

/-- The row of type `FLEET_ALLOCATION`. -/
def fleetRow (call : DispatchCall) (targetVehicleId : Value) : EvidenceRow where
  evidenceType := "FLEET_ALLOCATION"
  algorithmVersion := algorithmVersion call.fleetEvidence "FLEET_SCORE_V1"
  payloadJson := compactFleetEvidence call.candidateVehicles call.originalVehicleId targetVehicleId
  roadNetworkVersion := .none

/-- The row of type `ROUTE_CALCULATION`. -/
def routeRow (call : DispatchCall) : EvidenceRow where
  evidenceType := "ROUTE_CALCULATION"
  algorithmVersion := algorithmVersion call.routeEvidence "DIJKSTRA_V1"
  payloadJson := compactRouteEvidence call.routeEvidence call.originalRouteId call.targetRouteId
  roadNetworkVersion := integer (call.routeEvidence.get "road_network_version")

/-- `_execute_once` for a task without a dispatch, `none` when the candidate cannot be reserved.
`reserves` says of a vehicle that it is there, `AVAILABLE`, and not taken before the commit. -/
def executeOnce (reserves : String → Bool) (call : DispatchCall) (candidate : Value) :
    Option StoredDispatch :=
  let targetVehicleId := text candidate "vehicle_id"
  let targetDriverId := text candidate "driver_id"
  let reserved : Bool :=
    match targetVehicleId with
    | .str vehicleId => reserves vehicleId && decide (targetDriverId ≠ .none)
    | _ => false
  if candidate ≠ .none ∧ reserved = false then none
  else some {
    originalVehicleId := call.originalVehicleId
    targetVehicleId := targetVehicleId
    targetDriverId := targetDriverId
    evidence := [fleetRow call targetVehicleId, routeRow call] }

/-- `execute`: the first candidate that can be reserved; `none` is `VehicleReservationConflict`. -/
def execute (reserves : String → Bool) (call : DispatchCall) : Option StoredDispatch :=
  (attempts call).findSome? (executeOnce reserves call)

end CountyFlow.Evidence
