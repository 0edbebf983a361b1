import CountyFlow.Core.Decimal
import CountyFlow.Core.Schema
import CountyFlow.Road.Network

/-!
# What the nodes write down of a plan

The nodes before `dispatch_node` put the ranked vehicles, the candidate routes, the paths and the road
network into the graph state, as dictionaries of texts and numbers.  The objects they write down are
those of the services, with their decimals; the patches keep the keys that `dispatch_node` reads as
evidence.  `Reaches` are the states that patches of the nodes lead to, in whatever order and however
often.
-/

namespace CountyFlow.Evidence

open CountyFlow.Core
open CountyFlow.Road (RouteObjective)

/-! ### Paths, vehicles, routes -/

/-- `list(texts)`. -/
def texts (items : List String) : Value := .list (items.map .str)

def ofText : Option String → Value
  | some s => .str s
  | none => .none

def ofInt : Option ℤ → Value
  | some z => .int z
  | none => .none

/-- `format(d, "f") if d is not None else None`. -/
def ofFixed (d : Option Decimal) : Value := ofText (d.map Decimal.fixed)

structure PathResult where
  objective : RouteObjective
  nodeIds : List String
  edgeIds : List String
  distanceKm : Decimal
  estimatedMinutes : ℤ
  riskCost : Decimal
  visitedNodeCount : ℤ
  deriving DecidableEq, Repr

/-- `RouteObjective.value`. -/
def objectiveValue : RouteObjective → String
  | .fastest => "FASTEST"
  | .shortest => "SHORTEST"
  | .safest => "SAFEST"

/-- The entries of `_path_to_state`. -/
def pathEntries (path : PathResult) : State :=
  [("objective", .str (objectiveValue path.objective)),
    ("node_ids", texts path.nodeIds),
    ("edge_ids", texts path.edgeIds),
    ("distance_km", .str path.distanceKm.str),
    ("estimated_minutes", .int path.estimatedMinutes),
    ("risk_cost", .str path.riskCost.str),
    ("visited_node_count", .int path.visitedNodeCount)]

/-- `_path_to_state`, of the capacity node and of the routing node. -/
def pathToState : Option PathResult → Value
  | none => .none
  | some path => .dict (pathEntries path)

structure FleetScoreComponents where
  etaPenalty : Decimal
  distancePenalty : Decimal
  loadPenalty : Decimal
  roadRiskPenalty : Decimal
  sameStationBonus : Decimal
  cargoExactMatchBonus : Decimal
  deriving DecidableEq, Repr

/-- `_score_components_to_state`. -/
def fleetComponentsToState : Option FleetScoreComponents → Value
  | none => .none
  | some components => .dict [
      ("eta_penalty", .str components.etaPenalty.fixed),
      ("distance_penalty", .str components.distancePenalty.fixed),
      ("load_penalty", .str components.loadPenalty.fixed),
      ("road_risk_penalty", .str components.roadRiskPenalty.fixed),
      ("same_station_bonus", .str components.sameStationBonus.fixed),
      ("cargo_exact_match_bonus", .str components.cargoExactMatchBonus.fixed)]

/-- `VehicleCandidate`; `_evaluate` finds a vehicle eligible only behind its pickup route. -/
structure VehicleCandidate where
  vehicleId : String
  driverId : Option String
  vehicleStatus : String
  remainingLoadKg : Decimal
  pickupRoute : Option PathResult
  pickupDistanceKm : Option Decimal
  pickupEtaMinutes : Option ℤ
  scoreComponents : Option FleetScoreComponents
  score : Option Decimal
  eligible : Bool
  exclusionReasons : List String
  grossWeightTons : Decimal
  cargoCapability : String
  driverStatus : Option String
  pickup_of_eligible : eligible = true → pickupRoute.isSome = true

def candidateToState (candidate : VehicleCandidate) : Value :=
  .dict [
    ("vehicle_id", .str candidate.vehicleId),
    ("driver_id", ofText candidate.driverId),
    ("vehicle_status", .str candidate.vehicleStatus),
    ("driver_status", ofText candidate.driverStatus),
    ("remaining_load_kg", .str candidate.remainingLoadKg.fixed),
    ("remaining_capacity_kg", .str candidate.remainingLoadKg.fixed),
    ("gross_weight_tons", .str candidate.grossWeightTons.fixed),
    ("cargo_capability", .str candidate.cargoCapability),
    ("pickup_route", pathToState candidate.pickupRoute),
    ("pickup_distance_km", ofFixed candidate.pickupDistanceKm),
    ("pickup_eta_minutes", ofInt candidate.pickupEtaMinutes),
    ("score", ofFixed candidate.score),
    ("score_components", fleetComponentsToState candidate.scoreComponents),
    ("scoring_formula", .str "FLEET_SCORE_V1"),
    ("eligible", .bool candidate.eligible),
    ("exclusion_reasons", texts candidate.exclusionReasons)]

/-- `FleetAllocationResult`: every vehicle of the fleet once, the eligible ones first. -/
structure FleetAllocationResult where
  candidates : List VehicleCandidate
  vehicleIds_nodup : (candidates.map VehicleCandidate.vehicleId).Nodup

namespace FleetAllocationResult

def selected (result : FleetAllocationResult) : Option VehicleCandidate :=
  result.candidates.find? fun candidate => candidate.eligible

end FleetAllocationResult

structure RouteScoreComponents where
  normalizedMinutes : Decimal
  normalizedDistance : Decimal
  normalizedRisk : Decimal
  timePenalty : Decimal
  distancePenalty : Decimal
  riskPenalty : Decimal
  deriving DecidableEq, Repr

/-- `_route_score_components_to_state`. -/
def routeComponentsToState : Option RouteScoreComponents → Value
  | none => .none
  | some components => .dict [
      ("normalized_minutes", .str components.normalizedMinutes.fixed),
      ("normalized_distance", .str components.normalizedDistance.fixed),
      ("normalized_risk", .str components.normalizedRisk.fixed),
      ("time_penalty", .str components.timePenalty.fixed),
      ("distance_penalty", .str components.distancePenalty.fixed),
      ("risk_penalty", .str components.riskPenalty.fixed)]

/-- `_route_score_to_state`: two digits behind the point where they are enough. -/
def routeScoreToState (score : Decimal) : String :=
  (if score.same score.hundredths then score.hundredths else score).fixed

/-- `RouteCandidate`, with its defaults. -/
structure RouteCandidate where
  routeId : String
  routeName : String
  distanceKm : Decimal
  estimatedMinutes : ℤ
  riskLevel : String
  available : Bool
  reason : Option String
  score : Decimal
  nodeIds : List String := []
  edgeIds : List String := []
  objective : Option String := none
  algorithmVersion : Option String := none
  roadNetworkVersion : Option ℤ := none
  visitedNodeCount : Option ℤ := none
  riskCost : Option Decimal := none
  scoringFormula : Option String := none
  scoreComponents : Option RouteScoreComponents := none
  deriving DecidableEq, Repr

def routeCandidateToState (candidate : RouteCandidate) : Value :=
  .dict [
    ("route_id", .str candidate.routeId),
    ("route_name", .str candidate.routeName),
    ("distance_km", .str candidate.distanceKm.fixed),
    ("estimated_minutes", .int candidate.estimatedMinutes),
    ("risk_level", .str candidate.riskLevel),
    ("available", .bool candidate.available),
    ("reason", ofText candidate.reason),
    ("score", .str (routeScoreToState candidate.score)),
    ("node_ids", texts candidate.nodeIds),
    ("edge_ids", texts candidate.edgeIds),
    ("objective", ofText candidate.objective),
    ("algorithm_version", ofText candidate.algorithmVersion),
    ("scoring_formula", ofText candidate.scoringFormula),
    ("score_components", routeComponentsToState candidate.scoreComponents),
    ("road_network_version", ofInt candidate.roadNetworkVersion),
    ("visited_node_count", ofInt candidate.visitedNodeCount),
    ("risk_cost", ofText (candidate.riskCost.map Decimal.str))]

/-! ### The road network -/

structure RoadNodeSnapshot where
  nodeId : String
  name : String
  xKm : Decimal
  yKm : Decimal
  nodeType : String
  deriving DecidableEq, Repr

/-- One item of `_nodes_to_state`. -/
def nodeToState (node : RoadNodeSnapshot) : Value :=
  .dict [
    ("node_id", .str node.nodeId),
    ("name", .str node.name),
    ("x_km", .str node.xKm.str),
    ("y_km", .str node.yKm.str),
    ("node_type", .str node.nodeType)]

structure RoadEdgeSnapshot where
  edgeId : String
  name : String
  fromNodeId : String
  toNodeId : String
  distanceKm : Decimal
  baseMinutes : ℤ
  roadLevel : String
  riskLevel : String
  status : String
  congestionFactor : Decimal
  weightLimitTons : Decimal
  bidirectional : Bool
  version : ℤ
  deriving DecidableEq, Repr

/-- One item of `_edges_to_state`. -/
def edgeToState (edge : RoadEdgeSnapshot) : Value :=
  .dict [
    ("edge_id", .str edge.edgeId),
    ("name", .str edge.name),
    ("from_node_id", .str edge.fromNodeId),
    ("to_node_id", .str edge.toNodeId),
    ("distance_km", .str edge.distanceKm.fixed),
    ("base_minutes", .int edge.baseMinutes),
    ("road_level", .str edge.roadLevel),
    ("risk_level", .str edge.riskLevel),
    ("status", .str edge.status),
    ("congestion_factor", .str edge.congestionFactor.fixed),
    ("weight_limit_tons", .str edge.weightLimitTons.fixed),
    ("bidirectional", .bool edge.bidirectional),
    ("version", .int edge.version)]

end CountyFlow.Evidence
