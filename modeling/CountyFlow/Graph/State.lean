import CountyFlow.Dispatch.Service
import CountyFlow.Road.Network

/-!
# The state of the agent graph

`GraphState` is `DispatchGraphState`: a key that may be missing is an `Option`, and a list that may be
missing is read as empty.  A node answers with a patch; here it answers with the patched state.
Keys that no node reads again are left out, decimals are held by their value.
-/

namespace CountyFlow.Graph

open CountyFlow.Road CountyFlow.Dispatch

/-- The runtime status of a vehicle; a message may carry any text. -/
inductive VehicleRuntimeStatus where
  | normal | broken | unavailable | maintenance
  | other (text : String)
  deriving DecidableEq, Repr

def VehicleRuntimeStatus.text : VehicleRuntimeStatus → String
  | .normal => "NORMAL"
  | .broken => "BROKEN"
  | .unavailable => "UNAVAILABLE"
  | .maintenance => "MAINTENANCE"
  | .other text => text

/-- `{"BROKEN", "UNAVAILABLE", "MAINTENANCE"}`. -/
def VehicleRuntimeStatus.down : VehicleRuntimeStatus → Bool
  | .broken | .unavailable | .maintenance => true
  | .normal | .other _ => false

inductive CapacityStatus where
  | available | limited | unavailable | unknown | reassigned
  deriving DecidableEq, Repr

def CapacityStatus.text : CapacityStatus → String
  | .available => "AVAILABLE"
  | .limited => "LIMITED"
  | .unavailable => "UNAVAILABLE"
  | .unknown => "UNKNOWN"
  | .reassigned => "REASSIGNED"

/-- `{"UNAVAILABLE", "UNKNOWN"}`. -/
def CapacityStatus.closed : CapacityStatus → Bool
  | .unavailable | .unknown => true
  | .available | .limited | .reassigned => false

/-- `CapacityState`, which is `CapacityResult` too. -/
structure CapacityState where
  driverAvailable : Bool
  vehicleAvailable : Bool
  loadRatio : ℚ
  stationLoadRatio : Option ℚ
  capacityStatus : CapacityStatus
  riskLevel : String
  reason : Option String
  providerName : String
  deriving DecidableEq, Repr

/-- What the planner reads of a `MemoryRecallState`; `similarityText` is the score with two digits
behind the point. -/
structure MemoryRecall where
  memoryId : String
  similarityScore : ℚ
  similarityText : String
  historicalResolution : String
  deriving DecidableEq, Repr

inductive ErrorCode where
  | intakeValidationError
  | roadLocationUnresolved
  | vehicleAssignmentMismatch
  | memoryRecallError
  | capacityEvaluationError
  | noReplacementVehicle
  | noReachableRoute
  | dispatchConflict
  | dispatchVersionConflict
  | vehicleReservationConflict
  | auditPersistenceError
  deriving DecidableEq, Repr

def ErrorCode.conflict : ErrorCode → Bool
  | .dispatchConflict | .dispatchVersionConflict | .vehicleReservationConflict => true
  | _ => false

structure DispatchResultState where
  dispatchId : ℕ
  dispatchNo : String
  status : Worker.DispatchStatus
  targetRouteId : Option String
  originalVehicleId : Option String
  targetVehicleId : Option String
  targetDriverId : Option String
  version : ℕ
  executed : Bool
  deriving DecidableEq, Repr

/-- `AuditChecksState`. -/
structure AuditChecks where
  routeConsistency : Bool
  memoryConsistency : Bool
  fallbackConsistency : Bool
  dispatchExecution : Bool
  vehicleAssignment : Bool
  capacityConstraint : Bool
  routeConnectivity : Bool
  blockedEdgeExclusion : Bool
  deriving DecidableEq, Repr

/-- `AuditResultState`, without the id of its record. -/
structure AuditReport where
  auditStatus : Worker.AuditResult
  passed : Bool
  reason : String
  checks : AuditChecks
  dispatchId : Option ℕ
  requiresManualReview : Bool
  deriving DecidableEq, Repr

/-- `DispatchGraphState`. -/
structure GraphState where
  taskId : String
  orderId : ℤ
  driverId : String
  routeId : String
  anomalyType : String
  anomalyDescription : String
  vehicleId : Option String := none
  vehicleStatus : Option VehicleRuntimeStatus := none
  vehicleWeightTons : Option ℚ := none
  originalVehicleWeightTons : Option ℚ := none
  activeVehicleWeightTons : Option ℚ := none
  sandtableContextLoaded : Option Bool := none
  normalizedAnomaly : Option String := none
  memoryResults : List MemoryRecall := []
  graphMemoryUsed : Bool := false
  graphMemoryError : Option String := none
  weather : Option String := none
  roadCondition : Option String := none
  environmentRisk : Option String := none
  capacityState : Option CapacityState := none
  cargoWeightKg : Option ℚ := none
  cargoType : Option String := none
  originNodeId : Option String := none
  destinationNodeId : Option String := none
  incidentNodeId : Option String := none
  affectedEdgeIds : List String := []
  candidateVehicles : List CandidateState := []
  selectedVehicleId : Option String := none
  selectedDriverId : Option String := none
  selectedVehicleGrossWeightTons : Option ℚ := none
  blockedEdgeIds : List String := []
  originalPath : Option PathResult := none
  recommendedPath : Option PathResult := none
  routingAlgorithm : Option String := none
  roadNetworkVersion : Option ℤ := none
  roadNetworkSnapshot : Option RoadNetworkSnapshot := none
  roadNetworkEdges : List RoadEdgeSnapshot := []
  recommendedRoute : Option String := none
  identifiedIssue : Option String := none
  issueSubtype : Option String := none
  recommendedAction : Option String := none
  analysisMode : Option String := none
  decision : Option Decision := none
  decisionReason : Option String := none
  memoryAdopted : Option Bool := none
  adoptedMemoryId : Option String := none
  fallbackUsed : Option Bool := none
  fallbackReason : Option String := none
  dispatchResult : Option DispatchResultState := none
  auditReport : Option AuditReport := none
  requiresManualReview : Option Bool := none
  errorCode : Option ErrorCode := none
  errorMessage : Option String := none

inductive GraphError where
  | valueError (message : String)
  | keyError (key : String)
  /-- The path finder has not ended within its fuel. -/
  | unfinished
  | divisionByZero
  | service
  | dispatch (error : DispatchError)
  deriving DecidableEq, Repr

theorem text_some {x : String} (h : x ≠ "") : text (some x) = some x := text_eq_some.mpr ⟨rfl, h⟩

/-- A path search, as a step of a node. -/
def searched (result : Option (Option PathResult)) : Except GraphError (Option PathResult) :=
  match result with
  | some path => .ok path
  | none => .error .unfinished

theorem searched_eq_ok {result : Option (Option PathResult)} {path : Option PathResult} :
    searched result = .ok path ↔ result = some path := by
  cases result with
  | none => simp [searched]
  | some found => simp [searched]

/-- `keyword in value`. -/
def contains (value keyword : String) : Bool :=
  value.toList.tails.any fun tail => keyword.toList.isPrefixOf tail

/-- `" ".join(description.split())`. -/
def normalize (description : String) : String :=
  String.ofList (List.intercalate [' ']
    ((description.toList.splitOnP Worker.Db.isSpace).filter fun word => word ≠ []))

end CountyFlow.Graph
