import Mathlib.Data.Rat.Defs
import CountyFlow.Operations.Covered
import CountyFlow.Road.Network

/-!
# The reset of a demo scenario

`DemoScenarioResetService`: one transaction that opens two roads, and for the breakdown scenario puts
four vehicles and their drivers back, cancels every active mission and order, and frees every rescue
unit and bay.
-/

namespace CountyFlow.Operations

open CountyFlow.Lib
open CountyFlow.Dispatch (VehicleOperationalStatus)
open CountyFlow.Road (EdgeStatus)

/-! ### Rows -/

inductive DriverStatus where
  | onDuty
  | busy
  | offDuty
  | other (text : String)
  deriving DecidableEq, Repr

/-- What the reset writes of a row of `fleet_drivers`. -/
structure FleetDriver where
  driverId : String
  status : DriverStatus
  currentVehicleId : Option String
  currentNodeId : String
  version : ℕ
  deriving DecidableEq, Repr

/-- What the reset writes of a row of `road_edges`. -/
structure RoadEdge where
  edgeId : String
  status : EdgeStatus
  congestionFactor : ℚ
  version : ℕ
  deriving DecidableEq, Repr

/-- The tables that a reset reads and writes; `assigned_driver_id` is a column of the vehicles. -/
structure DemoDatabase where
  store : Store
  assignedDriverId : String → Option String
  drivers : Table FleetDriver FleetDriver.driverId
  roads : Table RoadEdge RoadEdge.edgeId

/-- The exceptions of the service, and that of the database. -/
inductive ResetError where
  | demoScenarioNotFound (scenarioId : String)
  | demoScenarioForbidden (subjectId : String)
  | demoScenarioStateIncomplete (message : String)
  | databaseError
  deriving DecidableEq, Repr

structure DemoScenarioResetResult where
  scenarioId : String
  status : String
  message : String
  deriving DecidableEq, Repr

/-! ### What is restored -/

def allowedSubjects : String → Option (List String)
  | "VEHICLE_BREAKDOWN_N04" => some ["CF-DEMO-001", "CF-DEMO-006"]
  | "ROAD_BLOCKED_E04" => some ["CF-DEMO-001", "CF-DEMO-006"]
  | _ => none

def activeRescueStatuses : List RescueStatus := [.created, .dispatched, .arrived, .loaded]

def activeMaintenanceStatuses : List MaintenanceStatus :=
  [.scheduled, .waitingBay, .diagnosing, .repairing, .qaPending]

/-- The values of `vehicle_specs`. -/
structure VehicleSpec where
  status : VehicleOperationalStatus
  nodeId : String
  driverId : String
  deriving DecidableEq, Repr

def vehicleSpecs : List (String × VehicleSpec) :=
  [("V-002", ⟨.inTransit, "N01", "D-002"⟩), ("V-003", ⟨.available, "N15", "D-011"⟩),
    ("V-005", ⟨.inTransit, "N15", "D-003"⟩), ("V-011", ⟨.available, "N14", "D-012"⟩)]

/-- `driver_specs`: the vehicle and the node of a driver. -/
def driverSpecs : List (String × String × String) :=
  [("D-002", "V-002", "N01"), ("D-011", "V-003", "N15"), ("D-003", "V-005", "N15"),
    ("D-012", "V-011", "N14")]

/-- A restored road; a flush that changes nothing writes no new version. -/
def restoredRoad (road : RoadEdge) : RoadEdge :=
  if road.edgeId ∈ ["E04", "E10"] then
    if road.status = .open ∧ road.congestionFactor = 1 then road
    else { road with status := .open, congestionFactor := 1, version := road.version + 1 }
  else road

def VehicleSpec.apply (spec : VehicleSpec) (vehicle : FleetVehicle) : FleetVehicle :=
  { vehicle with
    status := spec.status
    currentNodeId := spec.nodeId
    faultCode := none
    statusReason := none
    statusChangedAt := none
    availableAfter := none
    maintenanceOrderNo := none }

/-- A restored vehicle; its version is raised when one of its columns changes. -/
def restoredVehicle (assignedDriverId : String → Option String) (vehicle : FleetVehicle) :
    FleetVehicle :=
  match vehicleSpecs.lookup vehicle.vehicleId with
  | none => vehicle
  | some spec =>
    let written := spec.apply vehicle
    if written = vehicle ∧ assignedDriverId vehicle.vehicleId = some spec.driverId then vehicle
    else { written with version := vehicle.version + 1 }

def restoredAssignment (assignedDriverId : String → Option String) (vehicleId : String) :
    Option String :=
  match vehicleSpecs.lookup vehicleId with
  | none => assignedDriverId vehicleId
  | some spec => some spec.driverId

def restoredDriver (driver : FleetDriver) : FleetDriver :=
  match driverSpecs.lookup driver.driverId with
  | none => driver
  | some (vehicleId, nodeId) =>
    if driver.status = .onDuty ∧ driver.currentVehicleId = some vehicleId ∧
        driver.currentNodeId = nodeId then driver
    else { driver with
      status := .onDuty
      currentVehicleId := some vehicleId
      currentNodeId := nodeId
      version := driver.version + 1 }

def cancelledMission (mission : RescueMission) : RescueMission :=
  if mission.status ∈ activeRescueStatuses then { mission with
    status := .cancelled, nextTransitionAt := none, failureReason := some "DEMO_RESET" }
  else mission

def cancelledOrder (order : MaintenanceOrder) : MaintenanceOrder :=
  if order.status ∈ activeMaintenanceStatuses then { order with
    status := .cancelled, nextTransitionAt := none, availableAfter := none }
  else order

theorem restoredRoad_edgeId (road : RoadEdge) : (restoredRoad road).edgeId = road.edgeId := by
  unfold restoredRoad
  split
  · split <;> rfl
  · rfl

theorem restoredVehicle_vehicleId (assigned : String → Option String) (vehicle : FleetVehicle) :
    (restoredVehicle assigned vehicle).vehicleId = vehicle.vehicleId := by
  unfold restoredVehicle
  split
  · rfl
  · dsimp only
    split <;> rfl

theorem restoredDriver_driverId (driver : FleetDriver) :
    (restoredDriver driver).driverId = driver.driverId := by
  unfold restoredDriver
  split
  · rfl
  · split <;> rfl

theorem cancelledMission_kept (mission : RescueMission) :
    (cancelledMission mission).taskId = mission.taskId := by
  unfold cancelledMission
  split <;> rfl

theorem cancelledOrder_kept (order : MaintenanceOrder) : (cancelledOrder order).taskId = order.taskId := by
  unfold cancelledOrder
  split <;> rfl

/-! ### The transaction -/

def requireRows {ρ : Type} {key : ρ → String} (rows : Table ρ key) (expected : List String)
    (label : String) : Except ResetError Unit :=
  match expected.filter fun k => (rows.find k).isNone with
  | [] => .ok ()
  | missing => .error (.demoScenarioStateIncomplete
      ("Missing " ++ label ++ ": " ++ ", ".intercalate (missing.mergeSort (· ≤ ·))))

namespace DemoDatabase

def resetRoads (db : DemoDatabase) : Except ResetError DemoDatabase := do
  requireRows db.roads ["E04", "E10"] "road edges"
  return { db with roads := db.roads.modify restoredRoad restoredRoad_edgeId }

def resetVehicleBreakdown (db : DemoDatabase) : Except ResetError DemoDatabase := do
  requireRows db.store.vehicles (vehicleSpecs.map Prod.fst) "fleet vehicles"
  requireRows db.drivers (driverSpecs.map Prod.fst) "fleet drivers"
  return { db with
    store := { db.store with
      vehicles := db.store.vehicles.modify (restoredVehicle db.assignedDriverId)
        (restoredVehicle_vehicleId _)
      missions := db.store.missions.modify cancelledMission cancelledMission_kept
      orders := db.store.orders.modify cancelledOrder cancelledOrder_kept
      units := db.store.units.modify (fun unit => { unit with status := .available }) fun _ => rfl
      bays := db.store.bays.modify
        (fun bay => { bay with status := .available, currentOrderNo := none }) fun _ => rfl }
    assignedDriverId := restoredAssignment db.assignedDriverId
    drivers := db.drivers.modify restoredDriver restoredDriver_driverId }

def reset (db : DemoDatabase) (scenarioId principalSubjectId : String) (commits : Bool) :
    Except ResetError (DemoScenarioResetResult × DemoDatabase) :=
  match allowedSubjects scenarioId with
  | none => .error (.demoScenarioNotFound scenarioId)
  | some subjects =>
    if principalSubjectId ∉ subjects then .error (.demoScenarioForbidden principalSubjectId)
    else do
      let opened ← db.resetRoads
      let restored ← (if scenarioId = "VEHICLE_BREAKDOWN_N04" then opened.resetVehicleBreakdown
        else .ok opened)
      if commits then
        return (⟨scenarioId, "READY", "演示场景已恢复，可以再次提交。"⟩, restored)
      else throw .databaseError

end DemoDatabase

/-! ### Consistent stores -/

/-- The statuses of an order that nobody works on any more. -/
def closedOrder : List MaintenanceStatus := [.cancelled, .completed, .failed]

/-- The statuses of a mission that nobody works on any more. -/
def closedMission : List RescueStatus := [.delivered, .failed, .cancelled]

variable {s : Store}

namespace Store

/-- **The fleet is consistent**: a vehicle under a case has an order that goes on, and what is available
serves nothing that is unfinished. -/
structure Consistent (s : Store) : Prop where
  vehicles : ∀ vehicle ∈ s.vehicles.rows, underCase vehicle.status = true →
    ∃ order ∈ s.orders.rows, order.vehicleId = vehicle.vehicleId ∧ order.status ∉ closedOrder
  units : ∀ unit ∈ s.units.rows, unit.status = .available → ∀ mission ∈ s.missions.rows,
    mission.rescueUnitId = unit.unitId → mission.status ∈ closedMission
  bays : ∀ bay ∈ s.bays.rows, bay.status = .available → ∀ order ∈ s.orders.rows,
    order.bayCode = some bay.bayCode ∨ bay.currentOrderNo = some order.orderNo →
    order.status ∈ closedOrder

theorem InStep.closed_iff (hs : s.InStep) {order : MaintenanceOrder}
    (hmem : order ∈ s.orders.rows) : order.status ∈ closedOrder ↔ order.status.unfinished = false := by
  have ho := Table.find_of_mem hmem
  obtain ⟨mission, hm⟩ := hs.mission ho
  obtain ⟨-, want, hwant, -⟩ := hs.fits _ mission order hm ho
  cases hstatus : order.status with
  | cancelled =>
    rw [hstatus] at hwant
    cases hmission : mission.status <;> rw [hmission] at hwant <;> cases hwant
  | _ => decide

theorem InStep.attended_iff (hs : s.InStep) (id : String) : s.Attended id ↔
    ∃ order ∈ s.orders.rows, order.vehicleId = id ∧ order.status ∉ closedOrder := by
  constructor
  · rintro ⟨t, order, ho, hopen, hid⟩
    refine ⟨order, Table.find_mem ho, hid, ?_⟩
    rw [hs.closed_iff (Table.find_mem ho), hopen]
    exact Bool.noConfusion
  · rintro ⟨order, hmem, hid, hopen⟩
    rw [hs.closed_iff hmem, Bool.not_eq_false] at hopen
    exact ⟨order.taskId, order, Table.find_of_mem hmem, hopen, hid⟩

theorem InStep.consistent_iff (hs : s.InStep) : s.Consistent ↔ ∀ id, ¬ s.Unattended id := by
  constructor
  · rintro h id ⟨⟨vehicle, hfind, hunder⟩, hnone⟩
    refine hnone ((hs.attended_iff id).mpr ?_)
    rw [← Table.find_key hfind]
    exact h.vehicles vehicle (Table.find_mem hfind) hunder
  · intro h
    refine ⟨?_, ?_, ?_⟩
    · intro vehicle hmem hunder
      rw [← hs.attended_iff]
      by_contra hnone
      exact h vehicle.vehicleId ⟨⟨vehicle, Table.find_of_mem hmem, hunder⟩, hnone⟩
    · intro unit hmem hfree mission hmission hunit
      have hdelivered : mission.status = .delivered := by
        by_contra hnot
        obtain ⟨unit', hfind, hout⟩ :=
          hs.unit _ mission (Table.find_of_mem hmission) (decide_eq_true hnot)
        rw [hunit, Table.find_of_mem hmem, Option.some.injEq] at hfind
        rw [← hfind, hfree] at hout
        cases hout
      rw [hdelivered]
      decide
    · intro bay hmem hfree order horder hserves
      rw [hs.closed_iff horder, ← Bool.not_eq_true]
      intro hopen
      have hreserved : bay.status = .reserved := by
        rcases hserves with hcode | hno
        · obtain ⟨-, code, bay', hcode', hfind, hreserved, -⟩ :=
            hs.bay _ order (Table.find_of_mem horder) hopen
          rw [hcode, Option.some.injEq] at hcode'
          rw [← hcode', Table.find_of_mem hmem, Option.some.injEq] at hfind
          rw [hfind]
          exact hreserved
        · exact (hs.named _ bay _ (Table.find_of_mem hmem) hno).1
      rw [hfree] at hreserved
      cases hreserved

end Store

/-! ### What a reset restores -/

variable {vehicleId : String}

theorem lookup_not_underCase {spec : VehicleSpec}
    (h : vehicleSpecs.lookup vehicleId = some spec) : underCase spec.status = false := by
  have hall : ∀ entry ∈ vehicleSpecs, underCase entry.2.status = false := by decide
  obtain ⟨before, after, hlist, -⟩ := List.lookup_eq_some_iff.mp h
  refine hall (vehicleId, spec) ?_
  rw [hlist]
  exact List.mem_append_right _ (List.mem_cons_self)

theorem lookup_eq_none : vehicleSpecs.lookup vehicleId = none ↔ vehicleId ∉ vehicleSpecs.map Prod.fst := by
  rw [List.lookup_eq_none_iff]
  constructor
  · intro h hmem
    obtain ⟨entry, hentry, rfl⟩ := List.mem_map.mp hmem
    simpa using h entry hentry
  · intro h entry hentry
    have hne : vehicleId ≠ entry.1 := by
      rintro rfl
      exact h (List.mem_map_of_mem hentry)
    simpa using hne

theorem restoredVehicle_underCase (assigned : String → Option String) (vehicle : FleetVehicle) :
    underCase (restoredVehicle assigned vehicle).status = true ↔
      underCase vehicle.status = true ∧ vehicle.vehicleId ∉ vehicleSpecs.map Prod.fst := by
  cases hspec : vehicleSpecs.lookup vehicle.vehicleId with
  | none =>
    have hkept : restoredVehicle assigned vehicle = vehicle := by
      unfold restoredVehicle
      rw [hspec]
    rw [hkept]
    exact (and_iff_left (lookup_eq_none.mp hspec)).symm
  | some spec =>
    have hfree := lookup_not_underCase hspec
    have hstatus : (restoredVehicle assigned vehicle).status = spec.status := by
      unfold restoredVehicle
      rw [hspec]
      dsimp only
      split
      · rename_i hsame
        rw [← hsame.1]
        rfl
      · rfl
    rw [hstatus, hfree]
    refine iff_of_false Bool.noConfusion ?_
    rintro ⟨-, hnot⟩
    rw [lookup_eq_none.mpr hnot] at hspec
    cases hspec

theorem cancelledMission_closed (mission : RescueMission) :
    (cancelledMission mission).status ∈ closedMission := by
  unfold cancelledMission
  split
  · show RescueStatus.cancelled ∈ closedMission
    decide
  · rename_i h
    revert h
    cases mission.status <;> decide

theorem cancelledOrder_closed (order : MaintenanceOrder) : (cancelledOrder order).status ∈ closedOrder := by
  unfold cancelledOrder
  split
  · show MaintenanceStatus.cancelled ∈ closedOrder
    decide
  · rename_i h
    revert h
    cases order.status <;> decide

variable {db db' : DemoDatabase}

namespace DemoDatabase

theorem resetRoads_store (h : db.resetRoads = .ok db') : db'.store = db.store := by
  unfold resetRoads at h
  obtain ⟨⟨⟩, -, h⟩ := bind_eq_ok.mp h
  rw [← Except.ok.inj h]

theorem resetVehicleBreakdown_consistent (h : db.resetVehicleBreakdown = .ok db') :
    db'.store.Consistent ↔ ∀ id, db.store.UnderCase id → id ∈ vehicleSpecs.map Prod.fst := by
  unfold resetVehicleBreakdown at h
  obtain ⟨⟨⟩, -, h⟩ := bind_eq_ok.mp h
  obtain ⟨⟨⟩, -, h⟩ := bind_eq_ok.mp h
  cases h
  constructor
  · rintro hconsistent id ⟨vehicle, hfind, hunder⟩
    by_contra hnot
    have hid : vehicle.vehicleId = id := Table.find_key hfind
    rw [← hid] at hnot
    obtain ⟨order, horder, -, hopen⟩ := hconsistent.vehicles _
      (List.mem_map_of_mem (Table.find_mem hfind))
      ((restoredVehicle_underCase db.assignedDriverId vehicle).mpr ⟨hunder, hnot⟩)
    obtain ⟨before, -, rfl⟩ := List.mem_map.mp horder
    exact hopen (cancelledOrder_closed before)
  · intro hrestored
    refine ⟨?_, ?_, ?_⟩
    · intro vehicle hmem hunder
      obtain ⟨before, hbefore, rfl⟩ := List.mem_map.mp hmem
      obtain ⟨hcase, hnot⟩ := (restoredVehicle_underCase _ _).mp hunder
      exact absurd (hrestored _ ⟨before, Table.find_of_mem hbefore, hcase⟩) hnot
    · intro unit _ _ mission hmission _
      obtain ⟨before, -, rfl⟩ := List.mem_map.mp hmission
      exact cancelledMission_closed before
    · intro bay _ _ order horder _
      obtain ⟨before, -, rfl⟩ := List.mem_map.mp horder
      exact cancelledOrder_closed before

theorem reset_ok {scenarioId subjectId : String} {commits : Bool} {result : DemoScenarioResetResult}
    (h : db.reset scenarioId subjectId commits = .ok (result, db')) :
    ∃ opened : DemoDatabase, opened.store = db.store ∧
      if scenarioId = "VEHICLE_BREAKDOWN_N04" then opened.resetVehicleBreakdown = .ok db'
      else db' = opened := by
  unfold reset at h
  split at h
  · cases h
  · split at h
    · cases h
    · obtain ⟨opened, hopened, h⟩ := bind_eq_ok.mp h
      obtain ⟨restored, hrestored, h⟩ := bind_eq_ok.mp h
      cases commits with
      | false => cases h
      | true =>
        obtain rfl : restored = db' := (Prod.mk.inj (Except.ok.inj h)).2
        refine ⟨opened, resetRoads_store hopened, ?_⟩
        split
        · rename_i hscenario
          rwa [if_pos hscenario] at hrestored
        · rename_i hscenario
          rw [if_neg hscenario] at hrestored
          exact (Except.ok.inj hrestored).symm

end DemoDatabase

/-! ### A reset after a run -/

/-- The scenario restores what the run has left under a case: the breakdown scenario its four vehicles,
the other one nothing, so that no vehicle may have begun under a case that it has no order for. -/
def Restores (scenarioId : String) (first last : Store) : Prop :=
  if scenarioId = "VEHICLE_BREAKDOWN_N04" then
    ∀ id, last.UnderCase id → id ∈ vehicleSpecs.map Prod.fst
  else ∀ id, ¬ first.UnderCase id

namespace System

/-- **A reset after a run leaves the fleet consistent exactly when its scenario restores what the run
has left under a case.** -/
theorem reset_consistent_iff {s₀ s : System} {run : List Action} (h₀ : s₀.Initial)
    (hrun : exec step s₀ run = some s) {db db' : DemoDatabase} (hdb : db.store = s.store)
    {scenarioId subjectId : String} {commits : Bool} {result : DemoScenarioResetResult}
    (hreset : db.reset scenarioId subjectId commits = .ok (result, db')) :
    db'.store.Consistent ↔ Restores scenarioId s₀.store s.store := by
  obtain ⟨opened, hopened, hbranch⟩ := DemoDatabase.reset_ok hreset
  rw [hdb] at hopened
  unfold Restores
  split at hbranch
  · rename_i hscenario
    rw [if_pos hscenario, DemoDatabase.resetVehicleBreakdown_consistent hbranch, hopened]
  · rename_i hscenario
    subst hbranch
    rw [if_neg hscenario, hopened, (sound_of_run h₀ hrun).inStep.consistent_iff]
    exact forall_congr' fun id => not_congr (unattended_of_run h₀ hrun id)

/-! ### The seeded breakdown -/

theorem unique_seededUnit : ([⟨"RU-001", .available, "N15"⟩].map RescueUnit.unitId).Nodup :=
  List.nodup_singleton _

theorem unique_seededBay : ([⟨"A-02", .available, none⟩].map MaintenanceBay.bayCode).Nodup :=
  List.nodup_singleton _

/-- The vehicles of the seed that the case and the breakdown scenario are about. -/
def seededFleet : System where
  store :=
    { vehicles := ⟨[⟨"V-001", .inTransit, none, none, none, none, none, "N04", 1⟩,
        ⟨"V-002", .available, none, none, none, none, none, "N01", 1⟩,
        ⟨"V-003", .available, none, none, none, none, none, "N15", 1⟩,
        ⟨"V-005", .available, none, none, none, none, none, "N15", 1⟩,
        ⟨"V-011", .available, none, none, none, none, none, "N14", 1⟩], by decide⟩
      units := ⟨[⟨"RU-001", .available, "N15"⟩], unique_seededUnit⟩
      bays := ⟨[⟨"A-02", .available, none⟩], unique_seededBay⟩
      missions := .empty
      orders := .empty
      outbox := [] }
  loads := fun _ => none

/-- The case that the seed opens: `V-001` has broken down, and `V-005` takes over. -/
def seededBreakdown : BreakdownCaseRequest where
  taskId := "DEMO-TASK-REPORT-VEHICLE"
  vehicleId := "V-001"
  replacementVehicleId := some "V-005"
  rescueUnitId := "RU-001"
  incidentNodeId := "N04"
  stationNodeId := "N15"
  outboundEdgeIds := ["E09"]
  towEdgeIds := ["E09"]
  faultCode := "ENGINE_COOLING"
  diagnosis := "发动机冷却系统故障"
  repairMinutes := 120
  manualInspectionRequired := false
  occurredAt := 63800000000
  replacementEdgeIds := ["E09"]

/-- The store with the drivers and the roads of the seed. -/
def demoDatabase (store : Store) : DemoDatabase where
  store := store
  assignedDriverId := fun vehicleId =>
    [("V-001", "D-001"), ("V-002", "D-002"), ("V-003", "D-011"), ("V-005", "D-003"),
      ("V-011", "D-012")].lookup vehicleId
  drivers := ⟨[⟨"D-001", .busy, some "V-001", "N04", 1⟩, ⟨"D-002", .onDuty, some "V-002", "N01", 1⟩,
    ⟨"D-003", .onDuty, some "V-005", "N15", 1⟩, ⟨"D-011", .onDuty, some "V-003", "N15", 1⟩,
    ⟨"D-012", .onDuty, some "V-011", "N14", 1⟩], by decide⟩
  roads := ⟨[⟨"E04", .blocked, 1, 1⟩, ⟨"E10", .open, 1, 1⟩], by decide⟩

theorem seededFleet_initial : seededFleet.Initial :=
  ⟨rfl, rfl, by simp [seededFleet], fun _ => rfl⟩

/-- The road scenario leaves the seeded breakdown consistent. -/
theorem reset_consistent_iff_road : ∃ s db', exec step seededFleet
      [.createBreakdownCase seededBreakdown [] true] = some s ∧
    (demoDatabase s.store).reset "ROAD_BLOCKED_E04" "CF-DEMO-001" true =
      .ok (⟨"ROAD_BLOCKED_E04", "READY", "演示场景已恢复，可以再次提交。"⟩, db') ∧
    db'.store.Consistent := by
  have hrun : ((exec step seededFleet [.createBreakdownCase seededBreakdown [] true]).map fun s =>
      ((demoDatabase s.store).reset "ROAD_BLOCKED_E04" "CF-DEMO-001" true).toOption.map Prod.fst) =
      some (some ⟨"ROAD_BLOCKED_E04", "READY", "演示场景已恢复，可以再次提交。"⟩) := by decide +kernel
  obtain ⟨s, hs, hresult⟩ := Option.map_eq_some_iff.mp hrun
  obtain ⟨⟨result, db'⟩, hreset, rfl⟩ := Option.map_eq_some_iff.mp hresult
  rw [toOption_eq_some] at hreset
  refine ⟨s, db', hs, hreset, (reset_consistent_iff seededFleet_initial hs rfl hreset).mpr ?_⟩
  have hfree : ∀ vehicle ∈ seededFleet.store.vehicles.rows, underCase vehicle.status = false := by
    decide
  rintro id ⟨vehicle, hfind, hunder⟩
  rw [hfree vehicle (Table.find_mem hfind)] at hunder
  cases hunder

/-- The breakdown scenario cancels the order of `V-001`, which waits for its rescue, and does not
restore the vehicle. -/
theorem reset_strands_vehicle : seededFleet.Initial ∧ ∃ s db', exec step seededFleet
      [.createBreakdownCase seededBreakdown [] true] = some s ∧
    (demoDatabase s.store).reset "VEHICLE_BREAKDOWN_N04" "CF-DEMO-001" true =
      .ok (⟨"VEHICLE_BREAKDOWN_N04", "READY", "演示场景已恢复，可以再次提交。"⟩, db') ∧
    ¬ db'.store.Consistent := by
  have hrun : ((exec step seededFleet [.createBreakdownCase seededBreakdown [] true]).map fun s =>
      ((demoDatabase s.store).reset "VEHICLE_BREAKDOWN_N04" "CF-DEMO-001" true).toOption.map fun r =>
        (r.1, r.2.store.vehicles.rows.map fun vehicle => underCase vehicle.status,
          r.2.store.orders.rows.map MaintenanceOrder.status)) =
      some (some (⟨"VEHICLE_BREAKDOWN_N04", "READY", "演示场景已恢复，可以再次提交。"⟩,
        [true, false, false, false, false], [.cancelled])) := by decide +kernel
  obtain ⟨s, hs, hresult⟩ := Option.map_eq_some_iff.mp hrun
  obtain ⟨⟨result, db'⟩, hreset, hfacts⟩ := Option.map_eq_some_iff.mp hresult
  rw [toOption_eq_some] at hreset
  obtain ⟨rfl, hrows⟩ := Prod.mk.inj hfacts
  obtain ⟨hvehicles, horders⟩ := Prod.mk.inj hrows
  refine ⟨seededFleet_initial, s, db', hs, hreset, fun hconsistent => ?_⟩
  have hmem : true ∈ db'.store.vehicles.rows.map fun vehicle => underCase vehicle.status := by
    rw [hvehicles]
    exact List.mem_cons_self
  obtain ⟨vehicle, hvehicle, hunder⟩ := List.mem_map.mp hmem
  obtain ⟨order, horder, -, hopen⟩ := hconsistent.vehicles vehicle hvehicle hunder
  have hclosed := List.mem_map_of_mem (f := MaintenanceOrder.status) horder
  rw [horders, List.mem_singleton] at hclosed
  rw [hclosed] at hopen
  exact hopen (by decide)

end System

end CountyFlow.Operations
