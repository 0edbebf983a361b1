import Mathlib.Data.Nat.Digits.Defs
import CountyFlow.Dispatch.System

/-!
# Vehicle operations: data and numbers

The rows of the physical life of a vehicle (`app/models/vehicle_operation.py`,
`app/vehicle_operations/models.py`): rescue missions, maintenance orders, rescue units, bays and the
outbox, with the transition tables of `models.py` and the numbers that `create_breakdown_case` forms.

Instants are seconds of the clock's wall time since the beginning of year 1.  The version columns of
missions, orders, units and bays only make the transactions atomic and are left out, and so is the
status history, which no operation reads; a vehicle's version is kept, the dispatcher compares it.
-/

namespace CountyFlow.Operations

open CountyFlow.Dispatch (VehicleOperationalStatus)

/-! ### Instants and numbers -/

structure Date where
  year : ℕ
  month : ℕ
  day : ℕ
  deriving DecidableEq, Repr

/-- The date of an instant, in the Gregorian calendar: years are counted from March on, in eras of
400 years. -/
def dateOf (instant : ℕ) : Date :=
  let z := instant / 86400 + 306
  let era := z / 146097
  let dayOfEra := z % 146097
  let yearOfEra := (dayOfEra - dayOfEra / 1460 + dayOfEra / 36524 - dayOfEra / 146096) / 365
  let dayOfYear := dayOfEra - (365 * yearOfEra + yearOfEra / 4 - yearOfEra / 100)
  let shifted := (5 * dayOfYear + 2) / 153
  let month := if shifted < 10 then shifted + 3 else shifted - 9
  ⟨yearOfEra + era * 400 + (if month ≤ 2 then 1 else 0), month,
    dayOfYear - (153 * shifted + 2) / 5 + 1⟩

/-- The decimal digits of a number, without leading zeros. -/
def decimal (n : ℕ) : List Char := (Nat.digits 10 n).reverse.map Nat.digitChar

/-- The format `0{width}d`. -/
def padded (width n : ℕ) : List Char :=
  List.replicate (width - (decimal n).length) '0' ++ decimal n

/-- The format `%Y%m%d`. -/
def Date.text (date : Date) : List Char :=
  decimal date.year ++ padded 2 date.month ++ padded 2 date.day

/-- `int` of a text of decimal digits. -/
def intOf (digits : List Char) : ℕ := digits.foldl (fun n c => 10 * n + (c.toNat - 48)) 0

/-- The group of `(\d+)$`: the decimal digits at the end, where `$` also matches before a final line
feed. -/
def trailingDigits (text : List Char) : List Char :=
  let line := match text.reverse with
    | '\n' :: rest => rest
    | reversed => reversed
  (line.takeWhile Char.isDigit).reverse

def caseNumber (taskId : String) : ℕ :=
  match trailingDigits taskId.toList with
  | [] => 1
  | digits => intOf digits

def suffix (taskId : String) : List Char := padded 3 (caseNumber taskId)

def missionNo (taskId : String) (occurredAt : ℕ) : String :=
  String.ofList ("JY-".toList ++ (dateOf occurredAt).text ++ '-' :: suffix taskId)

def orderNo (taskId : String) (occurredAt : ℕ) : String :=
  String.ofList ("WX-".toList ++ (dateOf occurredAt).text ++ '-' :: suffix taskId)

/-! ### Statuses -/

inductive RescueStatus where
  | created
  | dispatched
  | arrived
  | loaded
  | delivered
  | failed
  | cancelled
  deriving DecidableEq, Repr

def RescueStatus.text : RescueStatus → String
  | .created => "CREATED"
  | .dispatched => "DISPATCHED"
  | .arrived => "ARRIVED"
  | .loaded => "LOADED"
  | .delivered => "DELIVERED"
  | .failed => "FAILED"
  | .cancelled => "CANCELLED"

inductive MaintenanceStatus where
  | scheduled
  | waitingBay
  | diagnosing
  | repairing
  | qaPending
  | completed
  | failed
  | cancelled
  deriving DecidableEq, Repr

def MaintenanceStatus.text : MaintenanceStatus → String
  | .scheduled => "SCHEDULED"
  | .waitingBay => "WAITING_BAY"
  | .diagnosing => "DIAGNOSING"
  | .repairing => "REPAIRING"
  | .qaPending => "QA_PENDING"
  | .completed => "COMPLETED"
  | .failed => "FAILED"
  | .cancelled => "CANCELLED"

def vehicleText : VehicleOperationalStatus → String
  | .available => "AVAILABLE"
  | .reserved => "RESERVED"
  | .inTransit => "IN_TRANSIT"
  | .dispatching => "DISPATCHING"
  | .broken => "BROKEN"
  | .waitingRescue => "WAITING_RESCUE"
  | .inRescue => "IN_RESCUE"
  | .maintenance => "MAINTENANCE"
  | .qaPending => "QA_PENDING"
  | .outOfService => "OUT_OF_SERVICE"

/-- `_RESCUE_TRANSITIONS`. -/
def RescueStatus.transitions : RescueStatus → List RescueStatus
  | .created => [.dispatched, .cancelled]
  | .dispatched => [.arrived, .failed, .cancelled]
  | .arrived => [.loaded, .failed, .cancelled]
  | .loaded => [.delivered, .failed, .cancelled]
  | _ => []

/-- `_MAINTENANCE_TRANSITIONS`. -/
def MaintenanceStatus.transitions : MaintenanceStatus → List MaintenanceStatus
  | .scheduled => [.waitingBay, .cancelled]
  | .waitingBay => [.diagnosing, .cancelled]
  | .diagnosing => [.repairing, .failed]
  | .repairing => [.qaPending, .failed]
  | .qaPending => [.completed, .failed]
  | _ => []

inductive UnitStatus where
  | available
  | dispatched
  | other (text : String)
  deriving DecidableEq, Repr

inductive BayStatus where
  | available
  | reserved
  | other (text : String)
  deriving DecidableEq, Repr

inductive InspectionResult where
  | passed
  | failed
  deriving DecidableEq, Repr

/-! ### Rows -/

/-- What the vehicle operations read and write of a row of `fleet_vehicles`. -/
structure FleetVehicle where
  vehicleId : String
  status : VehicleOperationalStatus
  faultCode : Option String
  statusReason : Option String
  statusChangedAt : Option ℕ
  availableAfter : Option ℕ
  maintenanceOrderNo : Option String
  currentNodeId : String
  version : ℕ
  deriving DecidableEq, Repr

/-- A row of `rescue_units`; `unit_id` is unique. -/
structure RescueUnit where
  unitId : String
  status : UnitStatus
  currentNodeId : String
  deriving DecidableEq, Repr

/-- A row of `rescue_missions`; `task_id` and `mission_no` are unique. -/
structure RescueMission where
  missionNo : String
  taskId : String
  vehicleId : String
  rescueUnitId : String
  status : RescueStatus
  incidentNodeId : String
  stationNodeId : String
  outboundEdgeIds : List String
  towEdgeIds : List String
  nextTransitionAt : Option ℕ
  attemptCount : ℕ
  failureReason : Option String
  deriving DecidableEq, Repr

/-- A row of `maintenance_bays`; `bay_code` is unique. -/
structure MaintenanceBay where
  bayCode : String
  status : BayStatus
  currentOrderNo : Option String
  deriving DecidableEq, Repr

/-- A row of `maintenance_orders`; `task_id` and `order_no` are unique. -/
structure MaintenanceOrder where
  orderNo : String
  taskId : String
  vehicleId : String
  bayCode : Option String
  status : MaintenanceStatus
  faultCode : String
  diagnosis : Option String
  repairMinutes : ℕ
  manualInspectionRequired : Bool
  inspectionResult : Option InspectionResult
  nextTransitionAt : Option ℕ
  availableAfter : Option ℕ
  deriving DecidableEq, Repr

/-- `payload_json` of an event. -/
inductive Payload where
  | vehicle (vehicleId : String)
  | replacement (vehicleId : String) (edgeIds : List String)
  | mission (missionNo : String)
  | order (orderNo : String)
  | status (text : String)
  | attempts (attemptCount : ℕ)
  | inspection (passed : Bool) (decidedBy : String)
  deriving DecidableEq, Repr

/-- A row of `domain_outbox`. -/
structure DomainOutbox where
  taskId : String
  aggregateType : String
  aggregateId : String
  eventType : String
  payload : Payload
  deriving DecidableEq, Repr

structure BreakdownCaseRequest where
  taskId : String
  vehicleId : String
  replacementVehicleId : Option String
  rescueUnitId : String
  incidentNodeId : String
  stationNodeId : String
  outboundEdgeIds : List String
  towEdgeIds : List String
  faultCode : String
  diagnosis : String
  repairMinutes : ℕ
  manualInspectionRequired : Bool
  occurredAt : ℕ
  replacementEdgeIds : List String
  deriving DecidableEq, Repr

/-- `OperationCaseSnapshot`; the snapshots of mission and order carry the columns of the rows. -/
structure OperationCaseSnapshot where
  taskId : String
  vehicleId : String
  vehicleStatus : VehicleOperationalStatus
  replacementVehicleId : Option String
  replacementVehicleStatus : Option VehicleOperationalStatus
  mission : RescueMission
  maintenance : MaintenanceOrder
  replacementEdgeIds : List String
  deriving DecidableEq, Repr

inductive OperationError where
  | notFound (key : String)
  | conflict (message : String)
  | invalidStateTransition (message : String)
  | keyError
  | attributeError
  | integrityError
  | databaseError
  deriving DecidableEq, Repr

def requireTransition {α : Type} [DecidableEq α] (text : α → String) (transitions : α → List α)
    (current target : α) : Except OperationError Unit :=
  if target ∈ transitions current then .ok ()
  else .error (.invalidStateTransition
    ("Invalid transition: " ++ text current ++ " -> " ++ text target))

def requireVehicleTransition : VehicleOperationalStatus → VehicleOperationalStatus →
    Except OperationError Unit :=
  requireTransition vehicleText VehicleOperationalStatus.transitions

def requireRescueTransition : RescueStatus → RescueStatus → Except OperationError Unit :=
  requireTransition RescueStatus.text RescueStatus.transitions

def requireMaintenanceTransition : MaintenanceStatus → MaintenanceStatus →
    Except OperationError Unit :=
  requireTransition MaintenanceStatus.text MaintenanceStatus.transitions

theorem requireTransition_ok {α : Type} [DecidableEq α] {text : α → String} {transitions : α → List α}
    {current target : α} :
    requireTransition text transitions current target = .ok () ↔ target ∈ transitions current := by
  unfold requireTransition
  split
  · rename_i h
    exact iff_of_true rfl h
  · rename_i h
    exact iff_of_false (fun h => by cases h) h

end CountyFlow.Operations
