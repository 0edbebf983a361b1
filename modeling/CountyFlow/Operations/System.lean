import CountyFlow.Operations.Repository

/-!
# Timers, people and the dispatcher

The operations of the repository and the reservations of `DispatchService` on one store.  A reservation
is two steps that others can come between: the query of the vehicle, and the commit, whose update
compares the version of the row.
-/

namespace CountyFlow.Operations

open CountyFlow.Lib
open CountyFlow.Dispatch (VehicleOperationalStatus)

/-! ### The system -/

structure System where
  store : Store
  loads : ℕ → Option FleetVehicle

inductive Action where
  | createBreakdownCase (request : BreakdownCaseRequest) (locked : List String) (commits : Bool)
  | advanceOneDueRescue (now : ℕ) (locked : List String) (commits : Bool)
  | advanceOneDueMaintenance (now : ℕ) (locked : List String) (commits : Bool)
  | retryRescue (missionNo : String) (now : ℕ) (commits : Bool)
  | recordInspection (orderNo : String) (passed : Bool) (decidedAt : ℕ) (decidedBy : String)
      (commits : Bool)
  | updateReplacementRoute (taskId : String) (edgeIds : List String) (commits : Bool)
  | load (p : ℕ) (vehicleId : String)
  | reserve (p : ℕ)
  deriving DecidableEq, Repr

namespace System

/-- The commit of a reservation; a version other than the loaded one is stale. -/
def reserve (s : System) (p : ℕ) : Option System :=
  match s.loads p with
  | none => none
  | some loaded =>
    let loads := Function.update s.loads p none
    match s.store.vehicles.find loaded.vehicleId with
    | none => some { s with loads := loads }
    | some vehicle =>
      if vehicle.version = loaded.version then
        some { store := s.store.writeVehicle { vehicle with status := .reserved }, loads := loads }
      else some { s with loads := loads }

/-- The state after an action, `none` when it is not enabled or raises: a call that raises changes
nothing. -/
def step (s : System) : Action → Option System
  | .createBreakdownCase request locked commits =>
    (s.store.createBreakdownCase request locked commits).toOption.map fun r =>
      { s with store := r.2 }
  | .advanceOneDueRescue now locked commits =>
    (s.store.advanceOneDueRescue now locked commits).toOption.map fun r => { s with store := r.2 }
  | .advanceOneDueMaintenance now locked commits =>
    (s.store.advanceOneDueMaintenance now locked commits).toOption.map fun r =>
      { s with store := r.2 }
  | .retryRescue missionNo now commits =>
    (s.store.retryRescue missionNo now commits).toOption.map fun r => { s with store := r.2 }
  | .recordInspection orderNo passed decidedAt decidedBy commits =>
    (s.store.recordInspection orderNo passed decidedAt decidedBy commits).toOption.map fun r =>
      { s with store := r.2 }
  | .updateReplacementRoute taskId edgeIds commits =>
    (s.store.updateReplacementRoute taskId edgeIds commits).toOption.map fun r =>
      { s with store := r.2 }
  | .load p vehicleId =>
    match s.store.vehicles.find vehicleId with
    | none => none
    | some vehicle =>
      if vehicle.status = .available then
        some { s with loads := Function.update s.loads p (some vehicle) }
      else none
  | .reserve p => s.reserve p

/-- Where runs begin: no case, and no bay that serves one; any vehicles, units and bays. -/
structure Initial (s : System) : Prop where
  missions : s.store.missions.rows = []
  orders : s.store.orders.rows = []
  bays : ∀ bay ∈ s.store.bays.rows, bay.currentOrderNo = none
  loads : ∀ p, s.loads p = none

end System

/-! ### Cases in step -/

/-- A mission that has not been delivered. -/
def RescueStatus.undelivered (status : RescueStatus) : Bool := status ≠ .delivered

/-- An order that is neither completed nor failed. -/
def MaintenanceStatus.unfinished (status : MaintenanceStatus) : Bool :=
  status ≠ .completed ∧ status ≠ .failed

/-- The statuses that mission and order can have together, and what the vehicle then is; a finished
case leaves its vehicle to others. -/
def expected : RescueStatus → MaintenanceStatus → Option (Option VehicleOperationalStatus)
  | .dispatched, .scheduled => some (some .waitingRescue)
  | .arrived, .scheduled => some (some .waitingRescue)
  | .loaded, .scheduled => some (some .inRescue)
  | .delivered, .waitingBay => some (some .maintenance)
  | .delivered, .diagnosing => some (some .maintenance)
  | .delivered, .repairing => some (some .maintenance)
  | .delivered, .qaPending => some (some .qaPending)
  | .delivered, .completed => some none
  | .delivered, .failed => some none
  | _, _ => none

def underCase : VehicleOperationalStatus → Bool
  | .waitingRescue | .inRescue | .maintenance | .qaPending => true
  | _ => false

variable {m : RescueStatus} {o : MaintenanceStatus}

theorem expected_underCase {st : VehicleOperationalStatus}
    (h : expected m o = some (some st)) : underCase st = true := by
  revert h
  cases m <;> cases o <;> simp only [expected] <;> rintro ⟨⟩ <;> rfl

theorem expected_unfinished {want : Option VehicleOperationalStatus} (h : expected m o = some want) :
    o.unfinished = want.isSome := by
  revert h
  cases m <;> cases o <;> simp only [expected] <;> rintro ⟨⟩ <;> rfl

variable {s : Store} {t : String}

namespace Store

/-- **Everything is in step.** -/
structure InStep (s : Store) : Prop where
  /-- Every mission has its order, and conversely. -/
  paired : ∀ t, (s.missions.find t).isSome = (s.orders.find t).isSome
  /-- Mission and order are about one vehicle and fit together. -/
  fits : ∀ t mission order, s.missions.find t = some mission → s.orders.find t = some order →
    mission.vehicleId = order.vehicleId ∧ ∃ want, expected mission.status order.status = some want ∧
      ∀ status, want = some status →
        ∃ vehicle, s.vehicles.find order.vehicleId = some vehicle ∧ vehicle.status = status
  /-- An undelivered mission has its unit out. -/
  unit : ∀ t mission, s.missions.find t = some mission → mission.status.undelivered = true →
    ∃ unit, s.units.find mission.rescueUnitId = some unit ∧ unit.status = .dispatched
  unitAlone : ∀ t t' mission mission', s.missions.find t = some mission →
    s.missions.find t' = some mission' → mission.status.undelivered = true →
    mission'.status.undelivered = true → mission.rescueUnitId = mission'.rescueUnitId → t = t'
  vehicleAlone : ∀ t t' order order', s.orders.find t = some order →
    s.orders.find t' = some order' → order.status.unfinished = true →
    order'.status.unfinished = true → order.vehicleId = order'.vehicleId → t = t'
  /-- An unfinished order has its bay, and has not been inspected. -/
  bay : ∀ t order, s.orders.find t = some order → order.status.unfinished = true →
    order.inspectionResult = none ∧ ∃ code bay, order.bayCode = some code ∧
      s.bays.find code = some bay ∧ bay.status = .reserved ∧ bay.currentOrderNo = some order.orderNo
  /-- A bay that names an order is reserved by it. -/
  named : ∀ code bay no, s.bays.find code = some bay → bay.currentOrderNo = some no →
    bay.status = .reserved ∧ ∃ t order, s.orders.find t = some order ∧
      order.status.unfinished = true ∧ order.orderNo = no ∧ order.bayCode = some code
  orderNos : ∀ t t' order order', s.orders.find t = some order → s.orders.find t' = some order' →
    order.orderNo = order'.orderNo → t = t'

theorem InStep.order (h : s.InStep) {mission : RescueMission}
    (hm : s.missions.find t = some mission) : ∃ order, s.orders.find t = some order := by
  have hp := h.paired t
  rw [hm, Option.isSome_some] at hp
  exact Option.isSome_iff_exists.mp hp.symm

theorem InStep.mission (h : s.InStep) {order : MaintenanceOrder}
    (ho : s.orders.find t = some order) : ∃ mission, s.missions.find t = some mission := by
  have hp := h.paired t
  rw [ho, Option.isSome_some] at hp
  exact Option.isSome_iff_exists.mp hp

theorem InStep.vehicle (h : s.InStep) {order : MaintenanceOrder} (ho : s.orders.find t = some order)
    (hopen : order.status.unfinished = true) :
    ∃ mission vehicle, s.missions.find t = some mission ∧ mission.vehicleId = order.vehicleId ∧
      s.vehicles.find order.vehicleId = some vehicle ∧
      expected mission.status order.status = some (some vehicle.status) := by
  obtain ⟨mission, hm⟩ := h.mission ho
  obtain ⟨hsame, want, hwant, hvehicle⟩ := h.fits t mission order hm ho
  rw [expected_unfinished hwant] at hopen
  obtain ⟨status, rfl⟩ := Option.isSome_iff_exists.mp hopen
  obtain ⟨vehicle, hfind, rfl⟩ := hvehicle status rfl
  exact ⟨mission, vehicle, hm, hsame, hfind, hwant⟩

theorem InStep.of_vehicles {s' : Store} (h : s.InStep) (hm : s'.missions = s.missions)
    (ho : s'.orders = s.orders) (hu : s'.units = s.units) (hb : s'.bays = s.bays)
    (hv : ∀ id vehicle, s.vehicles.find id = some vehicle → underCase vehicle.status = true →
      ∃ vehicle', s'.vehicles.find id = some vehicle' ∧ vehicle'.status = vehicle.status) :
    s'.InStep := by
  refine ⟨?_, ?_, ?_, ?_, ?_, ?_, ?_, ?_⟩
  · rw [hm, ho]
    exact h.paired
  · rw [hm, ho]
    intro t mission order hmission horder
    obtain ⟨hsame, want, hwant, hvehicle⟩ := h.fits t mission order hmission horder
    refine ⟨hsame, want, hwant, fun status hstatus => ?_⟩
    obtain ⟨vehicle, hfind, rfl⟩ := hvehicle status hstatus
    rw [hstatus] at hwant
    exact hv _ vehicle hfind (expected_underCase hwant)
  · rw [hm, hu]
    exact h.unit
  · rw [hm]
    exact h.unitAlone
  · rw [ho]
    exact h.vehicleAlone
  · rw [ho, hb]
    exact h.bay
  · rw [ho, hb]
    exact h.named
  · rw [ho]
    exact h.orderNos

end Store

end CountyFlow.Operations
