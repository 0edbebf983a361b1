import Mathlib.Data.List.MinMax
import Mathlib.Data.String.Basic
import CountyFlow.Lib.Runs
import CountyFlow.Operations.Model

/-!
# The vehicle operations repository

`SqlAlchemyVehicleOperationsRepository`: every method is one transaction under row locks, so that every
function here answers with a result and the whole new store, or with an exception and no change.
`locked` are the rows that `skip_locked` passes over because another transaction holds them, `commits`
says whether the database lets the transaction through.
-/

namespace CountyFlow.Operations

open CountyFlow.Lib
open CountyFlow.Dispatch (VehicleOperationalStatus)

/-- A payload with other `edge_ids`. -/
def Payload.reroute (edgeIds : List String) : Payload → Payload
  | .vehicle vehicleId | .replacement vehicleId _ => .replacement vehicleId edgeIds
  | payload => payload

structure Store where
  vehicles : Table FleetVehicle FleetVehicle.vehicleId
  units : Table RescueUnit RescueUnit.unitId
  bays : Table MaintenanceBay MaintenanceBay.bayCode
  missions : Table RescueMission RescueMission.taskId
  orders : Table MaintenanceOrder MaintenanceOrder.taskId
  outbox : List DomainOutbox

/-- `_transition_vehicle`. -/
def FleetVehicle.transition (vehicle : FleetVehicle) (target : VehicleOperationalStatus)
    (reason : String) (now : ℕ) : Except OperationError FleetVehicle := do
  requireVehicleTransition vehicle.status target
  return { vehicle with
    status := target, statusReason := some reason, statusChangedAt := some now }

namespace Store

def vehicleForUpdate (store : Store) (vehicleId : String) : Except OperationError FleetVehicle :=
  match store.vehicles.find vehicleId with
  | none => .error (.notFound vehicleId)
  | some vehicle => .ok vehicle

/-- The flush of a vehicle raises its version. -/
def writeVehicle (store : Store) (vehicle : FleetVehicle) : Store :=
  { store with vehicles := store.vehicles.replace { vehicle with version := vehicle.version + 1 } }

def event (store : Store) (taskId aggregateType aggregateId eventType : String) (payload : Payload) :
    Store :=
  { store with outbox := store.outbox ++ [⟨taskId, aggregateType, aggregateId, eventType, payload⟩] }

/-- The event of a replacement. -/
def isReplacement (taskId : String) (e : DomainOutbox) : Bool :=
  e.taskId = taskId ∧ e.eventType = "REPLACEMENT_DISPATCHED"

def replacementEvent (store : Store) (taskId : String) : Option DomainOutbox :=
  store.outbox.find? (isReplacement taskId)

def case (store : Store) (mission : RescueMission) : Except OperationError OperationCaseSnapshot :=
  match store.orders.find mission.taskId, store.vehicles.find mission.vehicleId with
  | none, _ => .error (.notFound mission.taskId)
  | some _, none => .error (.notFound mission.vehicleId)
  | some order, some vehicle =>
    let (replacementId, edgeIds) := match (store.replacementEvent mission.taskId).map (·.payload) with
      | some (.replacement vehicleId edgeIds) => (some vehicleId, edgeIds)
      | some (.vehicle vehicleId) => (some vehicleId, [])
      | _ => (none, [])
    .ok ⟨mission.taskId, vehicle.vehicleId, vehicle.status, replacementId,
      (replacementId.bind store.vehicles.find).map (·.status), mission, order, edgeIds⟩

/-- The end of a transaction that returns a case. -/
def commit (store : Store) (mission : RescueMission) (commits : Bool) :
    Except OperationError (OperationCaseSnapshot × Store) := do
  let snapshot ← store.case mission
  if commits then return (snapshot, store) else throw .databaseError

/-! ### A new case -/

def freeUnit (store : Store) (unitId : String) : Except OperationError RescueUnit :=
  match store.units.find unitId with
  | some unit =>
    if unit.status = .available then .ok unit
    else .error (.conflict "No available rescue unit for this breakdown.")
  | none => .error (.conflict "No available rescue unit for this breakdown.")

def freeBay (store : Store) (locked : List String) : Except OperationError MaintenanceBay :=
  match (store.bays.rows.filter fun bay =>
      bay.status = .available ∧ bay.bayCode ∉ locked).argmin MaintenanceBay.bayCode with
  | some bay => .ok bay
  | none => .error (.conflict "No maintenance bay is available.")

/-- The broken vehicle waits for its rescue. -/
def breakDown (store : Store) (request : BreakdownCaseRequest) : Except OperationError Store := do
  let vehicle ← store.vehicleForUpdate request.vehicleId
  let vehicle ← vehicle.transition .broken "员工上报车辆故障并安全停车" request.occurredAt
  let vehicle ← vehicle.transition .waitingRescue "救援与拖车任务已创建" request.occurredAt
  return store.writeVehicle { vehicle with
    faultCode := some request.faultCode
    maintenanceOrderNo := some (orderNo request.taskId request.occurredAt)
    availableAfter := none }

def takeOver (store : Store) (request : BreakdownCaseRequest) : Except OperationError Store :=
  match request.replacementVehicleId with
  | none => .ok store
  | some vehicleId => do
      let vehicle ← store.vehicleForUpdate vehicleId
      let vehicle ← vehicle.transition .dispatching "接替故障车辆配送任务" request.occurredAt
      let vehicle ← vehicle.transition .inTransit "货物责任已转移并继续配送" request.occurredAt
      return store.writeVehicle vehicle

def newMission (request : BreakdownCaseRequest) : RescueMission where
  missionNo := missionNo request.taskId request.occurredAt
  taskId := request.taskId
  vehicleId := request.vehicleId
  rescueUnitId := request.rescueUnitId
  status := .dispatched
  incidentNodeId := request.incidentNodeId
  stationNodeId := request.stationNodeId
  outboundEdgeIds := request.outboundEdgeIds
  towEdgeIds := request.towEdgeIds
  nextTransitionAt := some (request.occurredAt + 8)
  attemptCount := 0
  failureReason := none

def newOrder (request : BreakdownCaseRequest) (bay : MaintenanceBay) : MaintenanceOrder where
  orderNo := orderNo request.taskId request.occurredAt
  taskId := request.taskId
  vehicleId := request.vehicleId
  bayCode := some bay.bayCode
  status := .scheduled
  faultCode := request.faultCode
  diagnosis := some request.diagnosis
  repairMinutes := request.repairMinutes
  manualInspectionRequired := request.manualInspectionRequired
  inspectionResult := none
  nextTransitionAt := none
  availableAfter := none

def newEvents (request : BreakdownCaseRequest) : List DomainOutbox :=
  let mission := missionNo request.taskId request.occurredAt
  let order := orderNo request.taskId request.occurredAt
  [⟨request.taskId, "vehicle", request.vehicleId, "VEHICLE_STOPPED", .vehicle request.vehicleId⟩] ++
    (match request.replacementVehicleId with
      | none => []
      | some "" => []
      | some vehicleId => [⟨request.taskId, "vehicle", vehicleId, "REPLACEMENT_DISPATCHED",
          .replacement vehicleId request.replacementEdgeIds⟩]) ++
    [⟨request.taskId, "rescue", mission, "RESCUE_DISPATCHED", .mission mission⟩,
      ⟨request.taskId, "maintenance", order, "MAINTENANCE_SCHEDULED", .order order⟩]

/-- The insertion of mission and order meets the unique constraints of both tables. -/
def insertCase (store : Store) (request : BreakdownCaseRequest) (bay : MaintenanceBay) :
    Except OperationError Store :=
  let mission := newMission request
  let order := newOrder request bay
  if mission.missionNo ∈ store.missions.rows.map RescueMission.missionNo ∨
      order.orderNo ∈ store.orders.rows.map MaintenanceOrder.orderNo then .error .integrityError
  else match store.missions.add mission, store.orders.add order with
    | some missions, some orders => .ok { store with missions := missions, orders := orders }
    | _, _ => .error .integrityError

def createBreakdownCase (store : Store) (request : BreakdownCaseRequest) (locked : List String)
    (commits : Bool) : Except OperationError (OperationCaseSnapshot × Store) :=
  match store.missions.find request.taskId with
  | some existing => do return (← store.case existing, store)
  | none => do
      let _ ← store.vehicleForUpdate request.vehicleId
      let unit ← store.freeUnit request.rescueUnitId
      let bay ← store.freeBay locked
      let broken ← store.breakDown request
      let relieved ← broken.takeOver request
      let inserted ← relieved.insertCase request bay
      Store.commit
        { inserted with
          units := inserted.units.replace { unit with status := .dispatched }
          bays := inserted.bays.replace { bay with
            status := .reserved
            currentOrderNo := some (orderNo request.taskId request.occurredAt) }
          outbox := inserted.outbox ++ newEvents request } (newMission request) commits

/-! ### The timer -/

def dueMission (store : Store) (now : ℕ) (locked : List String) : Option RescueMission :=
  (store.missions.rows.filter fun mission =>
    mission.status ∈ [.dispatched, .arrived, .loaded] ∧ mission.nextTransitionAt.any (· ≤ now) ∧
      mission.taskId ∉ locked).argmin fun mission => mission.nextTransitionAt.getD 0

def rescueTarget : RescueStatus → Except OperationError RescueStatus
  | .dispatched => .ok .arrived
  | .arrived => .ok .loaded
  | .loaded => .ok .delivered
  | _ => .error .keyError

def rescueEvent : RescueStatus → String
  | .arrived => "RESCUE_ARRIVED"
  | .loaded => "VEHICLE_LOADED"
  | _ => "TOW_DELIVERED"

def advancedMission (mission : RescueMission) (target : RescueStatus) (now : ℕ) : RescueMission :=
  { mission with
    status := target
    attemptCount := mission.attemptCount + 1
    nextTransitionAt := match target with
      | .arrived => some (now + 6)
      | .loaded => some (now + 4)
      | _ => none }

/-- A mission is written with its new status and the event of it. -/
def recordRescue (store : Store) (mission : RescueMission) (target : RescueStatus) (now : ℕ) : Store :=
  { store with
    missions := store.missions.replace (advancedMission mission target now) }.event
      mission.taskId "rescue" mission.missionNo (rescueEvent target) (.status target.text)

/-- The towed vehicle stands at the station. -/
def receiveVehicle (store : Store) (mission : RescueMission) (now : ℕ) :
    Except OperationError Store := do
  let vehicle ← store.vehicleForUpdate mission.vehicleId
  let vehicle ← vehicle.transition .maintenance "车辆已送达县域维修站" now
  return store.writeVehicle { vehicle with currentNodeId := mission.stationNodeId }

def releaseUnit (store : Store) (mission : RescueMission) : Store :=
  match store.units.find mission.rescueUnitId with
  | none => store
  | some unit => { store with
      units := store.units.replace
        { unit with status := .available, currentNodeId := mission.stationNodeId } }

/-- The order of a delivered vehicle waits for its bay. -/
def awaitBay (store : Store) (taskId : String) (now : ℕ) : Except OperationError Store :=
  match store.orders.find taskId with
  | none => .ok store
  | some order => do
      requireMaintenanceTransition order.status .waitingBay
      return { store with
        orders := store.orders.replace
          { order with status := .waitingBay, nextTransitionAt := some (now + 1) } }

def rescueEffect (store : Store) (mission : RescueMission) (target : RescueStatus) (now : ℕ) :
    Except OperationError Store :=
  match target with
  | .loaded => do
      let vehicle ← store.vehicleForUpdate mission.vehicleId
      let vehicle ← vehicle.transition .inRescue "故障车辆已装载拖运" now
      return store.writeVehicle vehicle
  | .delivered => do
      let received ← store.receiveVehicle mission now
      (received.releaseUnit mission).awaitBay mission.taskId now
  | _ => .ok store

def advanceOneDueRescue (store : Store) (now : ℕ) (locked : List String) (commits : Bool) :
    Except OperationError (Option OperationCaseSnapshot × Store) :=
  match store.dueMission now locked with
  | none => .ok (none, store)
  | some mission => do
      let target ← rescueTarget mission.status
      requireRescueTransition mission.status target
      let effected ← (store.recordRescue mission target now).rescueEffect mission target now
      let (snapshot, store') ← effected.commit (advancedMission mission target now) commits
      return (some snapshot, store')

def dueOrder (store : Store) (now : ℕ) (locked : List String) : Option MaintenanceOrder :=
  (store.orders.rows.filter fun order =>
    order.status ∈ [.waitingBay, .diagnosing, .repairing, .qaPending] ∧
      order.nextTransitionAt.any (· ≤ now) ∧
      order.taskId ∉ locked).argmin fun order => order.nextTransitionAt.getD 0

def maintenanceTarget : MaintenanceStatus → Except OperationError MaintenanceStatus
  | .waitingBay => .ok .diagnosing
  | .diagnosing => .ok .repairing
  | .repairing => .ok .qaPending
  | .qaPending => .ok .completed
  | _ => .error .keyError

def advancedOrder (order : MaintenanceOrder) (target : MaintenanceStatus) (now : ℕ) :
    MaintenanceOrder :=
  match target with
  | .diagnosing => { order with status := target, nextTransitionAt := some (now + 5) }
  | .repairing => { order with
      status := target
      nextTransitionAt := some (now + 60 * order.repairMinutes)
      availableAfter := some (now + 60 * order.repairMinutes + 6) }
  | .qaPending => { order with status := target, nextTransitionAt := some (now + 6) }
  | .completed => { order with
      status := target, nextTransitionAt := none, inspectionResult := some .passed }
  | _ => { order with status := target, nextTransitionAt := none }

/-- An order is written with its new status and the event of it. -/
def recordMaintenance (store : Store) (order : MaintenanceOrder) (target : MaintenanceStatus)
    (now : ℕ) : Store :=
  { store with orders := store.orders.replace (advancedOrder order target now) }.event order.taskId
    "maintenance" order.orderNo ("MAINTENANCE_" ++ target.text) (.status target.text)

/-- The vehicle after `_release_vehicle_and_bay`. -/
def releasedVehicle (vehicle : FleetVehicle) (passed : Bool) : FleetVehicle :=
  if passed then { vehicle with
    faultCode := none
    statusReason := some "安全质检通过，车辆已恢复可调度"
    availableAfter := none
    maintenanceOrderNo := none }
  else vehicle

def releaseBay (store : Store) (order : MaintenanceOrder) : Store :=
  match order.bayCode.bind store.bays.find with
  | none => store
  | some bay => { store with
      bays := store.bays.replace { bay with status := .available, currentOrderNo := none } }

def releaseVehicleAndBay (store : Store) (order : MaintenanceOrder) (vehicle : FleetVehicle)
    (passed : Bool) (now : ℕ) : Except OperationError Store := do
  let target : VehicleOperationalStatus := if passed then .available else .outOfService
  let moved ← vehicle.transition target
    (if passed then "安全质检通过，自动恢复可调度" else "安全质检未通过，停止运营") now
  return ((store.writeVehicle (releasedVehicle moved passed)).releaseBay order).event order.taskId
    "vehicle" vehicle.vehicleId (if passed then "VEHICLE_AVAILABLE" else "VEHICLE_OUT_OF_SERVICE")
    (.status (vehicleText target))

def maintenanceEffect (store : Store) (order : MaintenanceOrder) (vehicle : FleetVehicle)
    (target : MaintenanceStatus) (now : ℕ) : Except OperationError Store :=
  match target with
  | .repairing => .ok (store.writeVehicle { vehicle with availableAfter := order.availableAfter })
  | .qaPending => do
      let vehicle ← vehicle.transition .qaPending "维修完成，进入安全质检" now
      return store.writeVehicle vehicle
  | .completed => store.releaseVehicleAndBay order vehicle true now
  | _ => .ok store

/-- The end of a transaction about an order, whose mission is queried for the result. -/
def commitOrder (store : Store) (taskId : String) (commits : Bool) :
    Except OperationError (OperationCaseSnapshot × Store) :=
  match store.missions.find taskId with
  | none => .error .attributeError
  | some mission => store.commit mission commits

/-- `advance_one_due_maintenance`: an order that needs an inspection by hand only loses its timer. -/
def advanceOneDueMaintenance (store : Store) (now : ℕ) (locked : List String) (commits : Bool) :
    Except OperationError (Option OperationCaseSnapshot × Store) :=
  match store.dueOrder now locked with
  | none => .ok (none, store)
  | some order =>
    if order.status = .qaPending ∧ order.manualInspectionRequired ∧ order.inspectionResult = none then
      do
        let waiting := { store with
          orders := store.orders.replace { order with nextTransitionAt := none } }
        let (snapshot, store') ← waiting.commitOrder order.taskId commits
        return (some snapshot, store')
    else do
      let target ← maintenanceTarget order.status
      requireMaintenanceTransition order.status target
      let recorded := store.recordMaintenance order target now
      let vehicle ← recorded.vehicleForUpdate order.vehicleId
      let effected ← recorded.maintenanceEffect (advancedOrder order target now) vehicle target now
      let (snapshot, store') ← effected.commitOrder order.taskId commits
      return (some snapshot, store')

/-! ### People -/

/-- `select(RescueMission).where(mission_no == ...)`. -/
def missionByNo (store : Store) (missionNo : String) : Option RescueMission :=
  store.missions.rows.find? fun mission => mission.missionNo = missionNo

/-- `select(MaintenanceOrder).where(order_no == ...)`. -/
def orderByNo (store : Store) (orderNo : String) : Option MaintenanceOrder :=
  store.orders.rows.find? fun order => order.orderNo = orderNo

def retryRescue (store : Store) (missionNo : String) (now : ℕ) (commits : Bool) :
    Except OperationError (OperationCaseSnapshot × Store) :=
  match store.missionByNo missionNo with
  | none => .error (.notFound missionNo)
  | some mission =>
    if mission.status ≠ .failed then
      .error (.invalidStateTransition ("Retry requires FAILED, got " ++ mission.status.text))
    else match store.units.find mission.rescueUnitId with
      | none => .error (.conflict "Rescue unit is not available for retry.")
      | some unit =>
        if unit.status ≠ .available then
          .error (.conflict "Rescue unit is not available for retry.")
        else
          let retried : RescueMission := { mission with
            status := .dispatched
            nextTransitionAt := some (now + 8)
            failureReason := none
            attemptCount := mission.attemptCount + 1 }
          (Store.event { store with
            missions := store.missions.replace retried
            units := store.units.replace { unit with status := .dispatched } }
            mission.taskId "rescue" mission.missionNo "RESCUE_RETRIED"
            (.attempts retried.attemptCount)).commit retried commits

def decidedOrder (order : MaintenanceOrder) (passed : Bool) : MaintenanceOrder :=
  { order with
    status := if passed then .completed else .failed
    inspectionResult := some (if passed then .passed else .failed)
    nextTransitionAt := none }

def recordInspection (store : Store) (orderNo : String) (passed : Bool) (decidedAt : ℕ)
    (decidedBy : String) (commits : Bool) : Except OperationError (OperationCaseSnapshot × Store) :=
  match store.orderByNo orderNo with
  | none => .error (.notFound orderNo)
  | some order =>
    if order.status ≠ .qaPending then
      .error (.invalidStateTransition ("Inspection requires QA_PENDING, got " ++ order.status.text))
    else do
      let decided := decidedOrder order passed
      requireMaintenanceTransition order.status decided.status
      let recorded := { store with orders := store.orders.replace decided }
      let vehicle ← recorded.vehicleForUpdate order.vehicleId
      let released ← recorded.releaseVehicleAndBay decided vehicle passed decidedAt
      (released.event order.taskId "maintenance" order.orderNo "INSPECTION_DECIDED"
        (.inspection passed decidedBy)).commitOrder order.taskId commits

def updateReplacementRoute (store : Store) (taskId : String) (edgeIds : List String) (commits : Bool) :
    Except OperationError (OperationCaseSnapshot × Store) :=
  match store.replacementEvent taskId, store.missions.find taskId with
  | some _, some mission =>
    Store.commit { store with
      outbox := store.outbox.modify (store.outbox.findIdx (isReplacement taskId)) fun e =>
        { e with payload := e.payload.reroute edgeIds } } mission commits
  | _, _ => .error (.notFound taskId)

end Store

end CountyFlow.Operations
