import CountyFlow.Graph.State

/-!
# Intake

The message of a task becomes the first state, and `intake_node` completes it from the sandtable:
order, vehicle, and the location that the description names.
-/

namespace CountyFlow.Graph

open CountyFlow.Road CountyFlow.Dispatch

/-! ### Messages -/

structure DispatchTaskPayload where
  driverId : String
  vehicleId : String
  routeId : String
  anomalyType : String
  anomalyDescription : String
  vehicleStatus : VehicleRuntimeStatus
  incidentNodeId : Option String
  affectedEdgeId : Option String
  deriving DecidableEq, Repr

/-- What the graph gets of a `DispatchTaskMessage`, with the texts that the codec requires. -/
structure DispatchTaskMessage where
  taskId : String
  orderId : ℤ
  payload : DispatchTaskPayload
  taskId_ne : taskId ≠ ""
  vehicleId_ne : payload.vehicleId ≠ ""
  anomalyType_ne : payload.anomalyType ≠ ""
  incidentNodeId_ne : payload.incidentNodeId ≠ some ""
  affectedEdgeId_ne : payload.affectedEdgeId ≠ some ""

def taskMessageToGraphInput (task : DispatchTaskMessage) : GraphState :=
  { taskId := task.taskId
    orderId := task.orderId
    driverId := task.payload.driverId
    vehicleId := some task.payload.vehicleId
    routeId := task.payload.routeId
    anomalyType := task.payload.anomalyType
    anomalyDescription := task.payload.anomalyDescription
    vehicleStatus := some task.payload.vehicleStatus
    incidentNodeId := task.payload.incidentNodeId
    affectedEdgeIds := task.payload.affectedEdgeId.toList }

/-! ### The sandtable -/

def vehicleAliases : List (String × String) := [("新物冷链-01", "V-001")]

def nodeAliases : List (String × String) := [("新平路 K3.2", "N04")]

def edgeAliases : List (String × String) := [("新平路东河桥段", "E04"), ("中心仓至 308 线", "E10")]

def resolveExactAlias (description : String) (aliases : List (String × String)) : Option String :=
  match aliases.filter fun entry => contains description entry.1 with
  | [entry] => some entry.2
  | _ => none

/-- What `SqlAlchemySandtableRepository.load` reads of an order, its stations and its vehicle. -/
structure SandtableOrder where
  cargoWeightKg : Option ℚ
  cargoType : Option String
  originNodeId : String
  destinationNodeId : String
  vehicleId : String
  assignedDriverId : Option String
  vehicleWeightTons : ℚ
  roadNetworkVersion : ℤ
  deriving DecidableEq, Repr

/-- `SandtableTaskContext`, without the order's own ids. -/
structure SandtableTaskContext where
  cargoWeightKg : ℚ
  cargoType : String
  originNodeId : String
  destinationNodeId : String
  currentVehicleId : String
  currentDriverId : Option String
  incidentNodeId : Option String
  affectedEdgeIds : List String
  roadNetworkVersion : ℤ
  vehicleWeightTons : ℚ
  deriving DecidableEq, Repr

/-- `load`, for an order that is there: no location yet. -/
def SandtableOrder.context (order : SandtableOrder) : SandtableTaskContext where
  cargoWeightKg := order.cargoWeightKg.getD 0
  cargoType := (text order.cargoType).getD "GENERAL"
  originNodeId := order.originNodeId
  destinationNodeId := order.destinationNodeId
  currentVehicleId := order.vehicleId
  currentDriverId := order.assignedDriverId
  incidentNodeId := none
  affectedEdgeIds := []
  roadNetworkVersion := order.roadNetworkVersion
  vehicleWeightTons := order.vehicleWeightTons

/-- What the sandtable answers: `load` before and after the status of an edge is set, and whether the
edge is there. -/
structure Sandtable where
  load : ℤ → Option SandtableOrder
  reload : ℤ → Option SandtableOrder
  hasEdge : String → Bool

inductive ResolveError where
  | lookupError
  | roadLocationUnresolved
  | vehicleAssignmentMismatch (context : SandtableTaskContext)

def Sandtable.resolve (s : Sandtable) (orderId : ℤ) (anomalyType description : String)
    (vehicleId : Option String) : Except ResolveError SandtableTaskContext :=
  match (s.load orderId).map SandtableOrder.context with
  | none => .error .lookupError
  | some context =>
    let reported := text vehicleId <|> resolveExactAlias description vehicleAliases
    if ∃ id ∈ reported, id ≠ context.currentVehicleId then
      .error (.vehicleAssignmentMismatch context)
    else if anomalyType = "ROAD_BLOCKED" then
      match resolveExactAlias description edgeAliases with
      | none => .error .roadLocationUnresolved
      | some edgeId =>
        if s.hasEdge edgeId then
          match (s.reload orderId).map SandtableOrder.context with
          | none => .error .lookupError
          | some context => .ok { context with affectedEdgeIds := [edgeId] }
        else .error .lookupError
    else .ok { context with incidentNodeId := resolveExactAlias description nodeAliases }

/-! ### The node -/

/-- `intake_node`; `captured` is what the snapshot service captures. -/
def intakeNode (sandtable : Option Sandtable) (captured : Option RoadNetworkSnapshot)
    (s : GraphState) : GraphState :=
  let normalized := normalize s.anomalyDescription
  if s.taskId = "" ∨ s.orderId = 0 ∨ s.anomalyType = "" ∨ normalized = "" then
    { s with
      requiresManualReview := some true
      errorCode := some .intakeValidationError
      errorMessage := some "Anomaly description is required." }
  else
    let s₁ := { s with normalizedAnomaly := some normalized, requiresManualReview := some false }
    match sandtable with
    | none => s₁
    | some sandtable =>
      match sandtable.resolve s.orderId s.anomalyType normalized s.vehicleId with
      | .error .lookupError => { s₁ with sandtableContextLoaded := some false }
      | .error .roadLocationUnresolved =>
        { s₁ with
          sandtableContextLoaded := some true
          requiresManualReview := some true
          errorCode := some .roadLocationUnresolved
          errorMessage := some "The reported road location could not be resolved uniquely." }
      | .error (.vehicleAssignmentMismatch context) =>
        { s₁ with
          sandtableContextLoaded := some true
          vehicleId := some context.currentVehicleId
          driverId := (text context.currentDriverId).getD s.driverId
          vehicleWeightTons := some context.vehicleWeightTons
          originalVehicleWeightTons := some context.vehicleWeightTons
          activeVehicleWeightTons := some context.vehicleWeightTons
          requiresManualReview := some true
          errorCode := some .vehicleAssignmentMismatch
          errorMessage := some "请求车辆与订单当前分配车辆不一致，请人工核对订单车辆信息。" }
      | .ok context =>
        { s₁ with
          sandtableContextLoaded := some true
          cargoWeightKg := some context.cargoWeightKg
          cargoType := some context.cargoType
          originNodeId := some context.originNodeId
          destinationNodeId := some context.destinationNodeId
          vehicleId := some context.currentVehicleId
          vehicleWeightTons := some context.vehicleWeightTons
          originalVehicleWeightTons := some context.vehicleWeightTons
          activeVehicleWeightTons := some context.vehicleWeightTons
          driverId := (text context.currentDriverId).getD s.driverId
          incidentNodeId := context.incidentNodeId
          affectedEdgeIds := context.affectedEdgeIds
          blockedEdgeIds := context.affectedEdgeIds
          roadNetworkVersion := some ((captured.map RoadNetworkSnapshot.version).getD
            context.roadNetworkVersion)
          roadNetworkSnapshot := captured <|> s.roadNetworkSnapshot }

end CountyFlow.Graph
