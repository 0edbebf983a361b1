import CountyFlow.Evidence.Writer

/-!
# Reading stored evidence

`DispatchTaskApiService._evidence_responses` reads the two rows of a dispatch back: known keys are picked,
checked against strict schemas and against the identities of the dispatch.  Whatever does not fit makes
both answers `None`.
-/

namespace CountyFlow.Evidence

open CountyFlow.Core

/-! ### Schemas -/

/-- `str | None = None`, and its like for another type. -/
def orNone (type : Schema) : Schema × Option Value := (.optional type, some .none)

/-- A field without a default. -/
def required (type : Schema) : Schema × Option Value := (type, none)

/-- `Field(default_factory=list)`. -/
def orEmpty (type : Schema) : Schema × Option Value := (.list type, some (.list []))

def fleetScoreComponentsResponse : Schema :=
  .model (fleetComponentKeys.map fun key => (key, orNone .str))

def routeScoreComponentsResponse : Schema :=
  .model (routeComponentKeys.map fun key => (key, orNone .str))

def pathResponse : Schema :=
  .model [
    ("objective", required .str),
    ("node_ids", required (.list .str)),
    ("edge_ids", required (.list .str)),
    ("distance_km", required .str),
    ("estimated_minutes", required .int),
    ("risk_cost", required .str),
    ("visited_node_count", required .int),
    ("scoring_formula", orNone .str)]

def vehicleCandidateResponse : Schema :=
  .model [
    ("vehicle_id", required .str),
    ("driver_id", orNone .str),
    ("vehicle_status", orNone .str),
    ("driver_status", orNone .str),
    ("remaining_capacity_kg", orNone .str),
    ("gross_weight_tons", orNone .str),
    ("cargo_capability", orNone .str),
    ("pickup_route", orNone pathResponse),
    ("pickup_distance_km", orNone .str),
    ("pickup_eta_minutes", orNone .int),
    ("score", orNone .str),
    ("score_components", orNone fleetScoreComponentsResponse),
    ("scoring_formula", orNone .str),
    ("eligible", orNone .bool),
    ("exclusion_reasons", orEmpty .str)]

def vehicleAllocationResponse : Schema :=
  .model [
    ("original_vehicle_id", required (.optional .str)),
    ("target_vehicle_id", required (.optional .str)),
    ("target_driver_id", required (.optional .str)),
    ("vehicle_reassigned", required .bool),
    ("candidate_vehicles", orEmpty vehicleCandidateResponse),
    ("pickup_route", orNone pathResponse),
    ("scoring_formula", required .str)]

def roadNodeResponse : Schema :=
  .model [
    ("node_id", required .str),
    ("name", required .str),
    ("x_km", required .str),
    ("y_km", required .str),
    ("node_type", required .str)]

def roadEdgeResponse : Schema :=
  .model [
    ("edge_id", required .str),
    ("name", required .str),
    ("from_node_id", required .str),
    ("to_node_id", required .str),
    ("distance_km", required .str),
    ("base_minutes", required .int),
    ("road_level", required .str),
    ("risk_level", required .str),
    ("status", required .str),
    ("congestion_factor", required .str),
    ("weight_limit_tons", required .str),
    ("bidirectional", required .bool),
    ("version", required .int)]

def geoPointResponse : Schema :=
  .model [
    ("node_id", orNone .str),
    ("longitude", required .str),
    ("latitude", required .str)]

def realRoadRouteResponse : Schema :=
  .model [
    ("provider", required (.literal ["AMAP"])),
    ("source", required (.literal ["AMAP_WEB_SERVICE", "CLIENT_WAYPOINT_FALLBACK"])),
    ("status", required (.literal ["VERIFIED", "CLIENT_MATCH_REQUIRED"])),
    ("coordinate_system", required (.literal ["GCJ02"])),
    ("mapping_version", required .str),
    ("distance_meters", orNone .int),
    ("duration_seconds", orNone .int),
    ("waypoints", required (.list geoPointResponse)),
    ("polyline", required (.list geoPointResponse)),
    ("fallback_reason", orNone .str)]

def routeCandidateResponse : Schema :=
  .model [
    ("route_id", required .str),
    ("route_name", required .str),
    ("objective", required .str),
    ("node_ids", required (.list .str)),
    ("edge_ids", required (.list .str)),
    ("distance_km", required .str),
    ("estimated_minutes", required .int),
    ("risk_level", required .str),
    ("risk_cost", required .str),
    ("visited_node_count", required .int),
    ("available", required .bool),
    ("reason", required (.optional .str)),
    ("score", required .str),
    ("score_components", orNone routeScoreComponentsResponse),
    ("scoring_formula", required .str),
    ("algorithm_version", orNone .str),
    ("road_network_version", orNone .int)]

def routePlanResponse : Schema :=
  .model [
    ("original_path", orNone pathResponse),
    ("recommended_path", orNone pathResponse),
    ("candidate_routes", orEmpty routeCandidateResponse),
    ("blocked_edge_ids", orEmpty .str),
    ("distance_delta_km", orNone .str),
    ("eta_delta_minutes", orNone .int),
    ("visited_node_count", orNone .int),
    ("routing_status", orNone .str),
    ("algorithm", required .str),
    ("road_network_version", orNone .int),
    ("network_nodes", required (.list roadNodeResponse)),
    ("network_edges", required (.list roadEdgeResponse)),
    ("real_road_route", orNone realRoadRouteResponse)]

/-! ### Reading -/

/-- `_pick`, then `model_validate` and `model_dump`. -/
def readModel (type : Schema) (keys : List String) : Value → Option Value
  | .dict entries => type.validate (.dict (State.pick entries keys))
  | _ => none

def mappingList : Value → Option (List Value)
  | .list items => if items.all Value.isDict then some items else none
  | _ => none

/-- `_string_list` of the reader, which refuses where the writer drops. -/
def readStringList : Value → Option Value
  | .list items => if items.all isText then some (.list items) else none
  | _ => none

/-- `_path`. -/
def readPath (value : Value) : Option Value :=
  if value = .none then some .none
  else readModel pathResponse
    ["objective", "node_ids", "edge_ids", "distance_km", "estimated_minutes", "risk_cost",
      "visited_node_count", "scoring_formula"] value

def vehicleCandidateKeys : List String :=
  ["vehicle_id", "driver_id", "vehicle_status", "driver_status", "remaining_capacity_kg",
    "gross_weight_tons", "cargo_capability", "pickup_route", "pickup_distance_km",
    "pickup_eta_minutes", "score", "score_components", "scoring_formula", "eligible",
    "exclusion_reasons"]

def routeCandidateKeys : List String :=
  ["route_id", "route_name", "objective", "node_ids", "edge_ids", "distance_km",
    "estimated_minutes", "risk_level", "risk_cost", "visited_node_count", "available", "reason",
    "score", "score_components", "scoring_formula", "algorithm_version", "road_network_version"]

/-- `not (key in source and source[key] != expected)`. -/
def agrees (source : State) (key : String) (expected : Value) : Bool :=
  match source.lookup key with
  | some value => value = expected
  | none => true

/-- The entries of a mapping, and none of anything else. -/
def entriesOf : Value → State
  | .dict entries => entries
  | _ => []

/-- One round of the loop in `_vehicle_candidates`. -/
def readVehicleCandidate (selectedCandidate : State) (targetVehicleId targetDriverId : Value)
    (candidate : Value) : Option Value :=
  let source := entriesOf candidate
  if source.get "vehicle_id" = targetVehicleId then
    if agrees source "driver_id" targetDriverId then
      let updated := ((source.update (selectedCandidate.filter fun entry =>
        entry.1 ∉ ["vehicle_id", "driver_id"])).set "vehicle_id" targetVehicleId).set
          "driver_id" targetDriverId
      readModel vehicleCandidateResponse vehicleCandidateKeys (.dict updated)
    else none
  else readModel vehicleCandidateResponse vehicleCandidateKeys (.dict source)

/-- `_vehicle_candidates`. -/
def readVehicleCandidates (payload : State) (targetVehicleId targetDriverId : Value) :
    Option (List Value) := do
  let selectedCandidate := entriesOf (payload.get "selected_candidate")
  guard (agrees payload "target_vehicle_id" targetVehicleId)
  guard (agrees payload "target_driver_id" targetDriverId)
  let rawCandidates ← mappingList (payload.get "candidates")
  guard (agrees selectedCandidate "vehicle_id" targetVehicleId)
  guard (agrees selectedCandidate "driver_id" targetDriverId)
  let output ← rawCandidates.mapM
    (readVehicleCandidate selectedCandidate targetVehicleId targetDriverId)
  let selectedCount := rawCandidates.countP fun candidate =>
    candidate.get "vehicle_id" = targetVehicleId
  guard (targetVehicleId = .none ∨ selectedCount = 1)
  return output

/-- A list of models: `_route_candidates`, `_road_nodes`, `_road_edges`. -/
def readModels (type : Schema) (keys : List String) (value : Value) : Option (List Value) :=
  (mappingList value).bind fun items => items.mapM (readModel type keys)

/-- `_route_candidates`. -/
def readRouteCandidates : Value → Option (List Value) :=
  readModels routeCandidateResponse routeCandidateKeys

/-- `_road_nodes`. -/
def readRoadNodes : Value → Option (List Value) :=
  readModels roadNodeResponse ["node_id", "name", "x_km", "y_km", "node_type"]

/-- `_road_edges`. -/
def readRoadEdges : Value → Option (List Value) :=
  readModels roadEdgeResponse
    ["edge_id", "name", "from_node_id", "to_node_id", "distance_km", "base_minutes", "road_level",
      "risk_level", "status", "congestion_factor", "weight_limit_tons", "bidirectional", "version"]

/-- `_real_road_route`. -/
def readRealRoadRoute (value : Value) : Option Value :=
  if value = .none then some .none else realRoadRouteResponse.validate value

/-- The vehicle allocation of `_evidence_responses`. -/
def readAllocation (dispatch : StoredDispatch) (fleetRow : EvidenceRow) (fleet route : State) :
    Option Value := do
  let candidates ← readVehicleCandidates fleet dispatch.targetVehicleId dispatch.targetDriverId
  let pickup ← readPath
    (if fleet.get "pickup_route" = .none then route.get "pickup_path" else fleet.get "pickup_route")
  vehicleAllocationResponse.validate (.dict [
    ("original_vehicle_id", dispatch.originalVehicleId),
    ("target_vehicle_id", dispatch.targetVehicleId),
    ("target_driver_id", dispatch.targetDriverId),
    ("vehicle_reassigned", .bool (dispatch.targetVehicleId ≠ .none ∧
      dispatch.targetVehicleId ≠ dispatch.originalVehicleId)),
    ("candidate_vehicles", .list candidates),
    ("pickup_route", pickup),
    ("scoring_formula", fleetRow.algorithmVersion)])

/-- The route plan of `_evidence_responses`. -/
def readRoutePlan (routeRow : EvidenceRow) (route : State) : Option Value := do
  let recommended ← readPath (route.get "recommended_path")
  let original ← readPath (route.get "original_path")
  let candidateRoutes ← readRouteCandidates (route.get "candidate_routes")
  let blockedEdgeIds ← readStringList (route.get "blocked_edge_ids")
  let nodes ← readRoadNodes (route.get "network_nodes")
  let edges ← readRoadEdges (route.get "network_edges")
  let realRoad ← readRealRoadRoute (route.get "real_road_route")
  routePlanResponse.validate (.dict [
    ("original_path", original),
    ("recommended_path", recommended),
    ("candidate_routes", .list candidateRoutes),
    ("blocked_edge_ids", blockedEdgeIds),
    ("distance_delta_km", route.get "distance_delta_km"),
    ("eta_delta_minutes", route.get "eta_delta_minutes"),
    ("visited_node_count", (route.lookup "visited_node_count").getD
      (recommended.get "visited_node_count")),
    ("routing_status", route.get "routing_status"),
    ("algorithm", routeRow.algorithmVersion),
    ("road_network_version", routeRow.roadNetworkVersion),
    ("network_nodes", .list nodes),
    ("network_edges", .list edges),
    ("real_road_route", realRoad)])

/-- The last row of a type, as `{row.evidence_type: row for row in rows}` keeps it. -/
def rowOf (rows : List EvidenceRow) (evidenceType : String) : Option EvidenceRow :=
  rows.reverse.find? fun row => row.evidenceType = evidenceType

/-- `_evidence_responses`: the vehicle allocation and the route plan, or nothing. -/
def evidenceResponses (dispatch : StoredDispatch) : Option (Value × Value) := do
  guard (dispatch.evidence.length = 2)
  let fleetRow ← rowOf dispatch.evidence "FLEET_ALLOCATION"
  let routeRow ← rowOf dispatch.evidence "ROUTE_CALCULATION"
  match fleetRow.payloadJson, routeRow.payloadJson with
  | .dict fleet, .dict route => do
      let allocation ← readAllocation dispatch fleetRow fleet route
      let plan ← readRoutePlan routeRow route
      return (allocation, plan)
  | _, _ => none

end CountyFlow.Evidence
