import CountyFlow.Graph.State

/-!
# Capacity and the replacement fleet

`CapacityService.evaluate` judges the assigned vehicle, `FleetAllocationService.allocate` ranks the
fleet for a broken one, and `capacity_node` puts the two together.
-/

namespace CountyFlow.Graph

open CountyFlow.Road CountyFlow.Dispatch

/-! ### The assigned vehicle -/

structure CapacitySnapshot where
  driverAvailable : Bool
  vehicleAvailable : Bool
  loadRatio : ℚ
  stationLoadRatio : Option ℚ
  providerName : String
  remainingLoadKg : Option ℚ
  cargoCapability : Option String
  deriving DecidableEq, Repr

/-- The service with what its provider answers, `none` when the provider fails. -/
structure CapacityService where
  limitedThreshold : ℚ
  unavailableThreshold : ℚ
  answer : Option CapacitySnapshot

def CapacitySnapshot.result (snapshot : CapacitySnapshot) (status : CapacityStatus)
    (riskLevel : String) (reason : Option String) : CapacityState :=
  ⟨snapshot.driverAvailable, snapshot.vehicleAvailable, snapshot.loadRatio,
    snapshot.stationLoadRatio, status, riskLevel, reason, snapshot.providerName⟩

/-- `_is_unavailable` and `_is_limited`. -/
def CapacitySnapshot.reaches (snapshot : CapacitySnapshot) (threshold : ℚ) : Bool :=
  decide (threshold ≤ snapshot.loadRatio ∨ ∃ ratio ∈ snapshot.stationLoadRatio, threshold ≤ ratio)

/-- `CapacityService.evaluate`; `none` is `CapacityEvaluationError`. -/
def CapacityService.evaluate (v : CapacityService) (vehicleStatus : VehicleRuntimeStatus)
    (cargoWeightKg : Option ℚ) (cargoType : Option String) : Option CapacityState :=
  v.answer.map fun snapshot =>
    if vehicleStatus.down then
      { snapshot with vehicleAvailable := false }.result .unavailable "high"
        (some ("Vehicle runtime status is " ++ vehicleStatus.text ++ "."))
    else if !snapshot.driverAvailable then
      snapshot.result .unavailable "high" (some "Assigned driver is unavailable.")
    else if !snapshot.vehicleAvailable then
      snapshot.result .unavailable "high" (some "Assigned vehicle is unavailable.")
    else if ∃ weight ∈ cargoWeightKg, ∃ remaining ∈ snapshot.remainingLoadKg, remaining < weight then
      snapshot.result .unavailable "high"
        (some "Assigned vehicle has insufficient remaining payload.")
    else if cargoType = some "COLD_CHAIN" ∧
        ∃ capability ∈ snapshot.cargoCapability, capability ≠ "COLD_CHAIN" then
      snapshot.result .unavailable "high"
        (some "Assigned vehicle lacks the required cargo capability.")
    else if snapshot.reaches v.unavailableThreshold then
      snapshot.result .unavailable "high" (some "Vehicle or station load exceeds capacity.")
    else if snapshot.reaches v.limitedThreshold then
      snapshot.result .limited "medium" (some "Vehicle load is approaching capacity.")
    else snapshot.result .available "low" none

/-! ### The fleet -/

structure FleetDriverSnapshot where
  driverId : String
  licenseClass : String
  status : String
  deriving DecidableEq, Repr

structure FleetVehicleSnapshot where
  vehicleId : String
  vehicleType : String
  maxLoadKg : ℚ
  currentLoadKg : ℚ
  cargoCapability : String
  grossWeightTons : ℚ
  status : String
  currentNodeId : String
  driver : Option FleetDriverSnapshot
  deriving DecidableEq, Repr

namespace FleetVehicleSnapshot

def remainingLoadKg (vehicle : FleetVehicleSnapshot) : ℚ :=
  quantize 2 (vehicle.maxLoadKg - vehicle.currentLoadKg)

def currentLoadRatio (vehicle : FleetVehicleSnapshot) : ℚ :=
  if vehicle.maxLoadKg = 0 then 0 else divide vehicle.currentLoadKg vehicle.maxLoadKg

/-- `_license_matches`, for a driver. -/
def licenseMatches (vehicle : FleetVehicleSnapshot) (driver : FleetDriverSnapshot) : Bool :=
  driver.licenseClass = "B2" ||
    (driver.licenseClass = "C1" &&
      vehicle.vehicleType ∈ ["VAN", "REFRIGERATED_VAN", "ELECTRIC_VAN", "TRICYCLE"])

end FleetVehicleSnapshot

structure FleetAllocationRequest where
  originalVehicleId : String
  incidentNodeId : String
  cargoWeightKg : ℚ
  cargoType : String
  destinationNodeId : Option String
  deriving DecidableEq, Repr

/-- `VehicleCandidate`; its distance and its minutes are those of the pickup route. -/
structure VehicleCandidate where
  vehicleId : String
  driverId : Option String
  vehicleStatus : String
  remainingLoadKg : ℚ
  pickupRoute : Option PathResult
  score : Option ℚ
  eligible : Bool
  exclusionReasons : List String
  grossWeightTons : ℚ
  cargoCapability : String
  driverStatus : Option String
  deriving DecidableEq, Repr

/-- The service with the vehicles of its provider and the network its estimator sees by itself;
`vehicle_id` is unique. -/
structure FleetAllocationService where
  vehicles : List FleetVehicleSnapshot
  network : RoadNetworkSnapshot
  vehicleIds_nodup : (vehicles.map FleetVehicleSnapshot.vehicleId).Nodup

def cheapReasons (vehicle : FleetVehicleSnapshot) (request : FleetAllocationRequest) : List String :=
  (if vehicle.vehicleId = request.originalVehicleId then ["ORIGINAL_VEHICLE_EXCLUDED"] else []) ++
  (if vehicle.status ≠ "AVAILABLE" then ["VEHICLE_UNAVAILABLE"] else []) ++
  (match vehicle.driver with
    | none => ["DRIVER_UNAVAILABLE"]
    | some driver =>
      (if driver.status ≠ "ON_DUTY" then ["DRIVER_UNAVAILABLE"] else []) ++
        if vehicle.licenseMatches driver then [] else ["LICENSE_MISMATCH"]) ++
  (if vehicle.remainingLoadKg < request.cargoWeightKg then ["INSUFFICIENT_CAPACITY"] else []) ++
  (if request.cargoType = "COLD_CHAIN" ∧ vehicle.cargoCapability ≠ "COLD_CHAIN" then
    ["CARGO_CAPABILITY_MISMATCH"] else [])

/-- `_RISK_PENALTIES[_risk_level(risk_cost)]`. -/
def roadRiskPenalty (riskCost : ℚ) : ℚ :=
  if 12 ≤ riskCost then 15 else if 0 < riskCost then 6 else 0

/-- The score of a vehicle with a pickup route, from `_score_components`. -/
def fleetScore (vehicle : FleetVehicleSnapshot) (request : FleetAllocationRequest)
    (pickup : PathResult) : ℚ :=
  let withoutLoad := rounded
    (100 - pickup.estimatedMinutes * (15 / 10) - pickup.distanceKm * 2
      - rounded (vehicle.currentLoadRatio * 20))
  let withoutRisk := rounded (withoutLoad - roadRiskPenalty pickup.riskCost)
  let sameStation := rounded
    (withoutRisk + if vehicle.currentNodeId = request.incidentNodeId then 8 else 0)
  quantize 1 (rounded
    (sameStation + if vehicle.cargoCapability = request.cargoType then 10 else 0))

/-- A candidate with its route, its score and the reasons against it. -/
def FleetVehicleSnapshot.candidate (vehicle : FleetVehicleSnapshot) (pickup : Option PathResult)
    (score : Option ℚ) (reasons : List String) : VehicleCandidate where
  vehicleId := vehicle.vehicleId
  driverId := vehicle.driver.map FleetDriverSnapshot.driverId
  vehicleStatus := vehicle.status
  remainingLoadKg := vehicle.remainingLoadKg
  pickupRoute := pickup
  score := score
  eligible := score.isSome && reasons.isEmpty
  exclusionReasons := reasons
  grossWeightTons := vehicle.grossWeightTons
  cargoCapability := vehicle.cargoCapability
  driverStatus := vehicle.driver.map FleetDriverSnapshot.status

def estimate (fuel : ℕ) (network : RoadNetworkSnapshot) (fromNodeId toNodeId : String)
    (vehicleWeightTons : ℚ) : Except GraphError (Option PathResult) :=
  searched (find fuel network fromNodeId toNodeId .fastest vehicleWeightTons [])

/-- The reasons for a leg without a route: `ROAD_WEIGHT_RESTRICTION` when a weightless vehicle had
one. -/
def unreachable (fuel : ℕ) (network : RoadNetworkSnapshot) (fromNodeId toNodeId reason : String) :
    Except GraphError (List String) := do
  let free ← estimate fuel network fromNodeId toNodeId 0
  return (if free.isSome then ["ROAD_WEIGHT_RESTRICTION"] else []) ++ [reason]

/-- The reasons against the way from the incident to the destination. -/
def deliveryReasons (fuel : ℕ) (network : RoadNetworkSnapshot) (request : FleetAllocationRequest)
    (vehicleWeightTons : ℚ) : Except GraphError (List String) :=
  match request.destinationNodeId with
  | none => .ok []
  | some destination => do
      let delivery ← estimate fuel network request.incidentNodeId destination vehicleWeightTons
      if delivery.isSome then return []
      unreachable fuel network request.incidentNodeId destination "DELIVERY_UNREACHABLE"

def FleetVehicleSnapshot.evaluate (fuel : ℕ) (network : RoadNetworkSnapshot)
    (request : FleetAllocationRequest) (vehicle : FleetVehicleSnapshot) :
    Except GraphError VehicleCandidate := do
  let reasons := cheapReasons vehicle request
  match ← estimate fuel network vehicle.currentNodeId request.incidentNodeId
      vehicle.grossWeightTons with
  | none =>
    let more ← unreachable fuel network vehicle.currentNodeId request.incidentNodeId
      "PICKUP_UNREACHABLE"
    return vehicle.candidate none none (reasons ++ more)
  | some pickup =>
    let more ← deliveryReasons fuel network request vehicle.grossWeightTons
    return vehicle.candidate (some pickup) (some (fleetScore vehicle request pickup))
      (reasons ++ more)

def VehicleCandidate.sortKey (c : VehicleCandidate) : ℚ ×ₗ ℤ ×ₗ String :=
  toLex (-c.score.getD 0, toLex ((c.pickupRoute.map PathResult.estimatedMinutes).getD 0, c.vehicleId))

/-- The order of the candidates: the eligible ones by score, then the others by id. -/
def ranked (candidates : List VehicleCandidate) : List VehicleCandidate :=
  ((candidates.filter fun c => c.eligible).insertionSort fun a b => a.sortKey ≤ b.sortKey) ++
    (candidates.filter fun c => !c.eligible).insertionSort fun a b => a.vehicleId ≤ b.vehicleId

/-- `FleetAllocationService.allocate`: the ranked candidates; the first one is selected when it is
eligible. -/
def FleetAllocationService.allocate (v : FleetAllocationService) (fuel : ℕ)
    (request : FleetAllocationRequest) (snapshot : Option RoadNetworkSnapshot) :
    Except GraphError (List VehicleCandidate × Option VehicleCandidate) := do
  let candidates ← v.vehicles.mapM fun vehicle =>
    vehicle.evaluate fuel (snapshot.getD v.network) request
  return (ranked candidates, (ranked candidates).head?.filter fun c => c.eligible)

/-! ### The node -/

/-- `_candidate_to_state`. -/
def VehicleCandidate.toState (c : VehicleCandidate) : CandidateState where
  vehicleId := some c.vehicleId
  driverId := c.driverId
  vehicleStatus := some c.vehicleStatus
  driverStatus := c.driverStatus
  remainingCapacityKg := some c.remainingLoadKg
  remainingLoadKg := some c.remainingLoadKg
  grossWeightTons := c.grossWeightTons
  cargoCapability := some c.cargoCapability
  eligible := c.eligible
  exclusionReasons := some c.exclusionReasons

/-- The graph runs for a task outside the sandtable. -/
def GraphState.legacyCompatibility (s : GraphState) : Bool :=
  decide (s.sandtableContextLoaded = some false)

def GraphState.assumedCapacity (s : GraphState) : CapacityState :=
  let available : Bool := decide (s.vehicleStatus.getD .normal = .normal)
  { driverAvailable := available
    vehicleAvailable := available
    loadRatio := 0
    stationLoadRatio := none
    capacityStatus := if available then .available else .unavailable
    riskLevel := if available then "low" else "high"
    reason := none
    providerName := if s.legacyCompatibility then "legacy_compatibility" else "sandtable_graph" }

/-- The first half of `capacity_node`: the capacity of the assigned vehicle, `none` when it cannot be
evaluated. -/
def GraphState.assignedCapacity (s : GraphState) (service : Option CapacityService) :
    Option CapacityState :=
  match service with
  | none => some s.assumedCapacity
  | some v =>
    if s.legacyCompatibility then some s.assumedCapacity
    else v.evaluate (s.vehicleStatus.getD .normal) s.cargoWeightKg s.cargoType

/-- What `capacity_node` asks the fleet. -/
def GraphState.allocationRequest (s : GraphState) : FleetAllocationRequest where
  originalVehicleId := s.vehicleId.getD ""
  incidentNodeId := (text s.incidentNodeId <|> s.originNodeId).getD ""
  cargoWeightKg := s.cargoWeightKg.getD 0
  cargoType := s.cargoType.getD "GENERAL"
  destinationNodeId := s.destinationNodeId

def GraphState.needsReplacement (s : GraphState) : Bool :=
  !s.legacyCompatibility && s.vehicleStatus.any VehicleRuntimeStatus.down

def GraphState.reassigned (s : GraphState) (capacity : CapacityState)
    (candidates : List VehicleCandidate) (selected : VehicleCandidate) : GraphState :=
  { s with
    capacityState := some { capacity with
      driverAvailable := true
      vehicleAvailable := true
      capacityStatus := .reassigned
      riskLevel := "low"
      reason := none }
    candidateVehicles := candidates.map VehicleCandidate.toState
    selectedVehicleId := some selected.vehicleId
    selectedDriverId := selected.driverId
    selectedVehicleGrossWeightTons := some selected.grossWeightTons
    activeVehicleWeightTons := some selected.grossWeightTons
    requiresManualReview := some false }

def GraphState.notReassigned (s : GraphState) (capacity : CapacityState)
    (candidates : List VehicleCandidate) : GraphState :=
  { s with
    capacityState := some { capacity with
      vehicleAvailable := false
      capacityStatus := .unavailable
      riskLevel := "high"
      reason := some "NO_REPLACEMENT_VEHICLE" }
    candidateVehicles := candidates.map VehicleCandidate.toState
    requiresManualReview := some true
    errorCode := some .noReplacementVehicle
    errorMessage := some "No eligible replacement vehicle is available." }

/-- The patch when the capacity cannot be evaluated. -/
def GraphState.capacityUnknown (s : GraphState) : GraphState :=
  { s with
    capacityState := some {
      driverAvailable := false
      vehicleAvailable := false
      loadRatio := 0
      stationLoadRatio := none
      capacityStatus := .unknown
      riskLevel := "high"
      reason := some "Capacity evaluation is temporarily unavailable."
      providerName := "unknown" }
    requiresManualReview := some true
    errorCode := some .capacityEvaluationError
    errorMessage := some "Capacity evaluation is temporarily unavailable." }

/-- `capacity_node`; `restores` says whether there is a snapshot service. -/
def capacityNode (service : Option CapacityService) (fleet : Option FleetAllocationService)
    (restores : Bool) (fuel : ℕ) (s : GraphState) : Except GraphError GraphState :=
  match s.assignedCapacity service with
  | none => .ok s.capacityUnknown
  | some capacity =>
    match fleet with
    | none => .ok { s with capacityState := some capacity }
    | some fleet =>
      if s.needsReplacement then
        match fleet.allocate fuel s.allocationRequest
            (if restores then s.roadNetworkSnapshot else none) with
        | .error e => .error e
        | .ok (candidates, some selected) => .ok (s.reassigned capacity candidates selected)
        | .ok (candidates, none) => .ok (s.notReassigned capacity candidates)
      else .ok { s with capacityState := some capacity }

end CountyFlow.Graph
