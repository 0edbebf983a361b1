import Mathlib.Data.Nat.Digits.Lemmas
import CountyFlow.Operations.Lockstep

/-!
# The numbers of a case

`create_breakdown_case` numbers mission and order by the date and by the decimal digits at the end of
the task id, and both columns are unique.
-/

namespace CountyFlow.Operations

open CountyFlow.Lib
open CountyFlow.Dispatch (VehicleOperationalStatus)

/-! ### Numbers read back -/

theorem digitChar_toNat {d : ℕ} (h : d < 10) : (Nat.digitChar d).toNat - 48 = d := by
  interval_cases d <;> rfl

theorem foldl_digits (ds : List ℕ) (h : ∀ d ∈ ds, d < 10) (n : ℕ) :
    (ds.reverse.map Nat.digitChar).foldl (fun n c => 10 * n + (c.toNat - 48)) n =
      n * 10 ^ ds.length + Nat.ofDigits 10 ds := by
  induction ds generalizing n with
  | nil => simp
  | cons d ds ih =>
    have hd : d < 10 := h d (List.mem_cons_self ..)
    rw [List.reverse_cons, List.map_append, List.foldl_append,
      ih fun d' hd' => h d' (List.mem_cons_of_mem _ hd')]
    simp only [List.map_cons, List.map_nil, List.foldl_cons, List.foldl_nil, digitChar_toNat hd,
      Nat.ofDigits_cons, List.length_cons, pow_succ]
    ring

theorem intOf_decimal (n : ℕ) : intOf (decimal n) = n := by
  unfold intOf decimal
  rw [foldl_digits _ (fun d hd => Nat.digits_lt_base (by decide) hd)]
  simp [Nat.ofDigits_digits]

theorem intOf_zeros (k : ℕ) (l : List Char) : intOf (List.replicate k '0' ++ l) = intOf l := by
  induction k with
  | zero => rfl
  | succ k ih => exact ih

theorem intOf_padded (width n : ℕ) : intOf (padded width n) = n := by
  unfold padded
  rw [intOf_zeros, intOf_decimal]

theorem length_padded {width n : ℕ} (h : n < 10 ^ width) : (padded width n).length = width := by
  have hdigits : (decimal n).length ≤ width := by
    unfold decimal
    rw [List.length_map, List.length_reverse]
    exact (Nat.digits_length_le_iff (by decide) n).mpr h
  unfold padded
  rw [List.length_append, List.length_replicate]
  omega

theorem hyphen_notMem_decimal (n : ℕ) : '-' ∉ decimal n := by
  intro h
  obtain ⟨d, hd, hchar⟩ := List.mem_map.mp h
  have hlt : d < 10 := Nat.digits_lt_base (by decide) (List.mem_reverse.mp hd)
  revert hchar
  interval_cases d <;> decide

theorem hyphen_notMem_padded (width n : ℕ) : '-' ∉ padded width n := by
  intro h
  rcases List.mem_append.mp h with h | h
  · have := List.eq_of_mem_replicate h
    revert this
    decide
  · exact hyphen_notMem_decimal n h

/-! ### Dates -/

theorem dateOf_bounds (instant : ℕ) : (dateOf instant).month < 100 ∧ (dateOf instant).day < 100 := by
  simp only [dateOf]
  generalize instant / 86400 + 306 = z
  have hera : z % 146097 < 146097 := Nat.mod_lt _ (by decide)
  generalize z % 146097 = e at *
  have hday : e - (365 * ((e - e / 1460 + e / 36524 - e / 146096) / 365) +
      (e - e / 1460 + e / 36524 - e / 146096) / 365 / 4 -
      (e - e / 1460 + e / 36524 - e / 146096) / 365 / 100) < 3000 := by omega
  generalize e - (365 * ((e - e / 1460 + e / 36524 - e / 146096) / 365) +
      (e - e / 1460 + e / 36524 - e / 146096) / 365 / 4 -
      (e - e / 1460 + e / 36524 - e / 146096) / 365 / 100) = y at *
  constructor
  · split <;> omega
  · omega

theorem hyphen_notMem_text (date : Date) : '-' ∉ date.text := by
  unfold Date.text
  simp only [List.mem_append, not_or]
  exact ⟨⟨hyphen_notMem_decimal _, hyphen_notMem_padded _ _⟩, hyphen_notMem_padded _ _⟩

theorem Date.text_inj {a b : ℕ} (h : (dateOf a).text = (dateOf b).text) : dateOf a = dateOf b := by
  obtain ⟨hma, hda⟩ := dateOf_bounds a
  obtain ⟨hmb, hdb⟩ := dateOf_bounds b
  unfold Date.text at h
  obtain ⟨hfront, hday⟩ := List.append_inj' h (by rw [length_padded hda, length_padded hdb])
  obtain ⟨hyear, hmonth⟩ := List.append_inj' hfront (by rw [length_padded hma, length_padded hmb])
  have hyear := congrArg intOf hyear
  have hmonth := congrArg intOf hmonth
  have hday := congrArg intOf hday
  rw [intOf_decimal, intOf_decimal] at hyear
  rw [intOf_padded, intOf_padded] at hmonth hday
  cases hda : dateOf a
  cases hdb : dateOf b
  simp_all

variable {t t' : String}

theorem number_inj {front : List Char} {a a' : ℕ}
    (h : String.ofList (front ++ (dateOf a).text ++ '-' :: suffix t) =
      String.ofList (front ++ (dateOf a').text ++ '-' :: suffix t')) :
    dateOf a = dateOf a' ∧ caseNumber t = caseNumber t' := by
  have hlists := String.ofList_injective h
  rw [List.append_assoc, List.append_assoc] at hlists
  have hrest := List.append_cancel_left hlists
  obtain ⟨hdate, -, hsuffix⟩ := (List.append_cons_inj_of_notMem
    (hyphen_notMem_text _) (hyphen_notMem_padded _ _)).mp hrest
  have hnumber := congrArg intOf hsuffix
  unfold suffix at hnumber
  rw [intOf_padded, intOf_padded] at hnumber
  exact ⟨Date.text_inj hdate, hnumber⟩

theorem missionNo_inj {a a' : ℕ} :
    missionNo t a = missionNo t' a' ↔ dateOf a = dateOf a' ∧ caseNumber t = caseNumber t' := by
  constructor
  · exact number_inj
  · rintro ⟨hdate, hnumber⟩
    unfold missionNo suffix
    rw [hdate, hnumber]

theorem orderNo_inj {a a' : ℕ} :
    orderNo t a = orderNo t' a' ↔ dateOf a = dateOf a' ∧ caseNumber t = caseNumber t' := by
  constructor
  · exact number_inj
  · rintro ⟨hdate, hnumber⟩
    unfold orderNo suffix
    rw [hdate, hnumber]

/-! ### A case that is ready -/

namespace Store

/-- Vehicle, unit, bay and replacement are there for a new case. -/
structure Ready (s : Store) (request : BreakdownCaseRequest) (locked : List String) : Prop where
  mission : s.missions.find request.taskId = none
  order : s.orders.find request.taskId = none
  vehicle : ∃ v, s.vehicles.find request.vehicleId = some v ∧ .broken ∈ v.status.transitions
  unit : ∃ unit, s.units.find request.rescueUnitId = some unit ∧ unit.status = .available
  bay : ∃ bay ∈ s.bays.rows, bay.status = .available ∧ bay.bayCode ∉ locked
  replacement : ∀ id, request.replacementVehicleId = some id → id ≠ request.vehicleId ∧
    ∃ v, s.vehicles.find id = some v ∧ .dispatching ∈ v.status.transitions

def NumbersFree (s : Store) (request : BreakdownCaseRequest) : Prop :=
  missionNo request.taskId request.occurredAt ∉ s.missions.rows.map RescueMission.missionNo ∧
    orderNo request.taskId request.occurredAt ∉ s.orders.rows.map MaintenanceOrder.orderNo

section Ready

variable {s : Store} {request : BreakdownCaseRequest} {locked : List String}

theorem Ready.freeUnit (h : s.Ready request locked) : ∃ unit, s.freeUnit request.rescueUnitId = .ok unit := by
  obtain ⟨unit, hfind, hfree⟩ := h.unit
  refine ⟨unit, ?_⟩
  unfold Store.freeUnit
  rw [hfind]
  exact if_pos hfree

theorem Ready.freeBay (h : s.Ready request locked) : ∃ bay, s.freeBay locked = .ok bay := by
  obtain ⟨bay, hmem, hfree, hlocked⟩ := h.bay
  unfold Store.freeBay
  cases hmin : (s.bays.rows.filter fun bay =>
      bay.status = .available ∧ bay.bayCode ∉ locked).argmin MaintenanceBay.bayCode with
  | some found => exact ⟨found, rfl⟩
  | none =>
    have hempty := List.argmin_eq_none.mp hmin
    have hin : bay ∈ s.bays.rows.filter fun bay =>
        bay.status = .available ∧ bay.bayCode ∉ locked :=
      List.mem_filter.mpr ⟨hmem, decide_eq_true ⟨hfree, hlocked⟩⟩
    rw [hempty] at hin
    cases hin

theorem Ready.breakDown (h : s.Ready request locked) : ∃ v, v.vehicleId = request.vehicleId ∧
    (∃ w, s.vehicles.find request.vehicleId = some w) ∧
    s.breakDown request = .ok (s.writeVehicle v) := by
  obtain ⟨v, hfind, hbroken⟩ := h.vehicle
  have hkey : v.vehicleId = request.vehicleId := Table.find_key hfind
  refine ⟨_, ?_, ⟨v, hfind⟩, bind_eq_ok.mpr ⟨v, vehicleForUpdate_ok.mpr hfind, bind_eq_ok.mpr ⟨_,
    FleetVehicle.transition_ok.mpr ⟨hbroken, rfl⟩, bind_eq_ok.mpr ⟨_,
      FleetVehicle.transition_ok.mpr ⟨List.mem_singleton_self _, rfl⟩, rfl⟩⟩⟩⟩
  exact hkey

theorem Ready.takeOver (h : s.Ready request locked) {v : FleetVehicle} (hid : v.vehicleId = request.vehicleId)
    (hv : ∃ w, s.vehicles.find request.vehicleId = some w) :
    ∃ relieved, (s.writeVehicle v).takeOver request = .ok relieved := by
  unfold Store.takeOver
  cases hreplacement : request.replacementVehicleId with
  | none => exact ⟨_, rfl⟩
  | some id =>
    obtain ⟨hne, w, hfind, hsent⟩ := h.replacement id hreplacement
    obtain ⟨u, hu⟩ := hv
    have hrow : s.vehicles.find v.vehicleId = some u := by
      rw [hid]
      exact hu
    have hfound : (s.writeVehicle v).vehicles.find id = some w := by
      rw [find_writeVehicle hrow, if_neg fun heq => hne (heq.trans hid)]
      exact hfind
    exact ⟨_, bind_eq_ok.mpr ⟨w, vehicleForUpdate_ok.mpr hfound, bind_eq_ok.mpr ⟨_,
      FleetVehicle.transition_ok.mpr ⟨hsent, rfl⟩, bind_eq_ok.mpr ⟨_,
        FleetVehicle.transition_ok.mpr ⟨List.mem_singleton_self _, rfl⟩, rfl⟩⟩⟩⟩

theorem Ready.insertCase (h : s.Ready request locked) {relieved : Store}
    (hrelieved : relieved = { s with vehicles := relieved.vehicles }) (bay : MaintenanceBay) :
    (s.NumbersFree request → ∃ inserted, relieved.insertCase request bay = .ok inserted ∧
      inserted.vehicles = relieved.vehicles ∧
      inserted.orders.find request.taskId = some (newOrder request bay)) ∧
    (¬ s.NumbersFree request → relieved.insertCase request bay = .error .integrityError) := by
  have hmissions : relieved.missions = s.missions := by rw [hrelieved]
  have horders : relieved.orders = s.orders := by rw [hrelieved]
  unfold Store.insertCase
  rw [hmissions, horders]
  constructor
  · rintro ⟨hmission, horder⟩
    have hm : s.missions.find (newMission request).taskId = none := h.mission
    have ho : s.orders.find (newOrder request bay).taskId = none := h.order
    obtain ⟨missions, hadd⟩ := Table.add_of_find_none hm
    obtain ⟨orders, hadd'⟩ := Table.add_of_find_none ho
    have hno : ¬ ((newMission request).missionNo ∈ s.missions.rows.map RescueMission.missionNo ∨
        (newOrder request bay).orderNo ∈ s.orders.rows.map MaintenanceOrder.orderNo) :=
      not_or.mpr ⟨hmission, horder⟩
    dsimp only
    rw [if_neg hno, hadd, hadd']
    exact ⟨_, rfl, rfl, by rw [Table.find_add hadd']; exact if_pos rfl⟩
  · intro hnot
    refine if_pos ?_
    by_contra hfree
    exact hnot (not_or.mp hfree)

theorem createBreakdownCase_ready (h : s.Ready request locked) :
    (s.NumbersFree request → ∃ r, s.createBreakdownCase request locked true = .ok r) ∧
    (¬ s.NumbersFree request →
      s.createBreakdownCase request locked true = .error .integrityError) := by
  obtain ⟨unit, hunit⟩ := h.freeUnit
  obtain ⟨bay, hbay⟩ := h.freeBay
  obtain ⟨v, hid, hv, hbroken⟩ := h.breakDown
  obtain ⟨relieved, hrelieved⟩ := h.takeOver hid hv
  obtain ⟨w, hw⟩ := hv
  obtain ⟨-, ⟨waiting, hwaiting, -⟩, -, -, -, heq⟩ := vehicles_of_create hbroken hrelieved
  obtain ⟨hfree, htaken⟩ := h.insertCase heq bay
  have hfound : s.vehicleForUpdate request.vehicleId = .ok w := vehicleForUpdate_ok.mpr hw
  unfold Store.createBreakdownCase
  rw [h.mission]
  constructor
  · intro hnumbers
    obtain ⟨inserted, hinserted, hvehicles, horder⟩ := hfree hnumbers
    simp only [hfound, hunit, hbay, hbroken, hrelieved, hinserted, bind, Except.bind]
    let final : Store := { inserted with
      units := inserted.units.replace { unit with status := .dispatched }
      bays := inserted.bays.replace { bay with
        status := .reserved
        currentOrderNo := some (orderNo request.taskId request.occurredAt) }
      outbox := inserted.outbox ++ newEvents request }
    have ho : final.orders.find (newMission request).taskId = some (newOrder request bay) := horder
    have hv : final.vehicles.find (newMission request).vehicleId = some waiting := by
      show inserted.vehicles.find request.vehicleId = some waiting
      rw [hvehicles]
      exact hwaiting
    obtain ⟨snapshot, hcommit⟩ := commit_eq ho hv true
    exact ⟨_, hcommit⟩
  · intro hnumbers
    simp only [hfound, hunit, hbay, hbroken, hrelieved, htaken hnumbers, bind, Except.bind]

end Ready

/-- The case of one request is there, another request is ready, and no third case has its numbers: if
the second fails, it is because of the first. -/
structure Awaits (s : Store) (first second : BreakdownCaseRequest) (locked : List String) : Prop where
  ready : s.Ready second locked
  mission : ∃ mission, s.missions.find first.taskId = some mission ∧
    mission.missionNo = missionNo first.taskId first.occurredAt
  order : ∃ order, s.orders.find first.taskId = some order ∧
    order.orderNo = orderNo first.taskId first.occurredAt
  otherMissions : ∀ mission ∈ s.missions.rows, mission.taskId ≠ first.taskId →
    mission.missionNo ≠ missionNo second.taskId second.occurredAt
  otherOrders : ∀ order ∈ s.orders.rows, order.taskId ≠ first.taskId →
    order.orderNo ≠ orderNo second.taskId second.occurredAt

theorem Awaits.numbersFree {s : Store} {first second : BreakdownCaseRequest} {locked : List String}
    (h : s.Awaits first second locked)
    (hmission : missionNo first.taskId first.occurredAt ≠ missionNo second.taskId second.occurredAt)
    (horder : orderNo first.taskId first.occurredAt ≠ orderNo second.taskId second.occurredAt) :
    s.NumbersFree second := by
  constructor
  · intro hmem
    obtain ⟨mission, hin, hno⟩ := List.mem_map.mp hmem
    by_cases htask : mission.taskId = first.taskId
    · obtain ⟨mission', hfind, hno'⟩ := h.mission
      have hfound := Table.find_of_mem hin
      rw [htask, hfind, Option.some.injEq] at hfound
      rw [hfound] at hno'
      exact hmission (hno'.symm.trans hno)
    · exact h.otherMissions mission hin htask hno
  · intro hmem
    obtain ⟨order, hin, hno⟩ := List.mem_map.mp hmem
    by_cases htask : order.taskId = first.taskId
    · obtain ⟨order', hfind, hno'⟩ := h.order
      have hfound := Table.find_of_mem hin
      rw [htask, hfind, Option.some.injEq] at hfound
      rw [hfound] at hno'
      exact horder (hno'.symm.trans hno)
    · exact h.otherOrders order hin htask hno

end Store

/-! ### Two cases -/

/-- The numbers of two requests differ, and the second case never fails because of the first. -/
def NeverClash (first second : BreakdownCaseRequest) : Prop :=
  missionNo first.taskId first.occurredAt ≠ missionNo second.taskId second.occurredAt ∧
    orderNo first.taskId first.occurredAt ≠ orderNo second.taskId second.occurredAt ∧
    ∀ (s : Store) (locked : List String), s.Awaits first second locked →
      ∃ r, s.createBreakdownCase second locked true = .ok r

/-- **Two cases never clash** exactly when their dates differ or the numbers at the end of their task
ids do. -/
theorem neverClash_iff (first second : BreakdownCaseRequest) :
    NeverClash first second ↔ dateOf first.occurredAt ≠ dateOf second.occurredAt ∨
      caseNumber first.taskId ≠ caseNumber second.taskId := by
  constructor
  · rintro ⟨hmission, -⟩
    rw [ne_eq, missionNo_inj, not_and_or] at hmission
    exact hmission
  · intro hdiffer
    have hmission : missionNo first.taskId first.occurredAt ≠
        missionNo second.taskId second.occurredAt := by
      rw [ne_eq, missionNo_inj, not_and_or]
      exact hdiffer
    have horder : orderNo first.taskId first.occurredAt ≠
        orderNo second.taskId second.occurredAt := by
      rw [ne_eq, orderNo_inj, not_and_or]
      exact hdiffer
    refine ⟨hmission, horder, fun s locked hawaits => ?_⟩
    exact (Store.createBreakdownCase_ready hawaits.ready).1 (hawaits.numbersFree hmission horder)

/-- An id that `submit` can generate: `TASK-` and 31 hexadecimal digits. -/
def isGenerated (taskId : String) : Bool :=
  taskId.toList.take 5 = "TASK-".toList ∧ (taskId.toList.drop 5).length = 31 ∧
    (taskId.toList.drop 5).all fun c => c ∈ "0123456789abcdef".toList

/-- Two vehicles under way, two rescue units and two bays. -/
def twoBreakdowns : System where
  store :=
    { vehicles := ⟨[⟨"V-001", .inTransit, none, none, none, none, none, "N04", 1⟩,
        ⟨"V-002", .inTransit, none, none, none, none, none, "N01", 1⟩], by simp⟩
      units := ⟨[⟨"RU-001", .available, "N15"⟩, ⟨"RU-002", .available, "N15"⟩], by simp⟩
      bays := ⟨[⟨"A-01", .available, none⟩, ⟨"A-02", .available, none⟩], by simp⟩
      missions := .empty
      orders := .empty
      outbox := [] }
  loads := fun _ => none

def firstBreakdown : BreakdownCaseRequest :=
  { System.brakeFailure with
    taskId := "TASK-5d0c8f61b2ae4f379c14e0a7d3b96ef"
    replacementVehicleId := none }

def secondBreakdown : BreakdownCaseRequest :=
  { System.brakeFailure with
    taskId := "TASK-c1947e2ab05d4d86a3f2708be5d61ca"
    vehicleId := "V-002"
    replacementVehicleId := none
    rescueUnitId := "RU-002"
    occurredAt := 63800003600 }

/-- Neither id ends in a decimal digit, so both cases are number 001 of the day, and the second is
never opened. -/
theorem second_case_refused : isGenerated firstBreakdown.taskId = true ∧
    isGenerated secondBreakdown.taskId = true ∧ firstBreakdown.taskId ≠ secondBreakdown.taskId ∧
    missionNo firstBreakdown.taskId firstBreakdown.occurredAt =
      missionNo secondBreakdown.taskId secondBreakdown.occurredAt ∧
    ((twoBreakdowns.step (.createBreakdownCase firstBreakdown [] true)).map fun s =>
      match s.store.createBreakdownCase secondBreakdown [] true with
      | .error e => some e
      | .ok _ => none) = some (some .integrityError) := by
  refine ⟨?_, ?_, ?_, ?_, ?_⟩
  · decide +kernel
  · decide +kernel
  · decide +kernel
  · decide +kernel
  · decide +kernel

end CountyFlow.Operations
