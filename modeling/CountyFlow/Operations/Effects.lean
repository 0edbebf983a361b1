import CountyFlow.Operations.Cases

/-!
# What the operations do

One lemma for every operation: it opens a case, moves one on, or leaves the cases alone.  The timers
are computed forward, from tables in step, so that the same lemma says what they do and that nothing
but the database can make them raise.
-/

namespace CountyFlow.Operations

open CountyFlow.Lib
open CountyFlow.Dispatch (VehicleOperationalStatus)

/-! ### Vehicles -/

/-- A row of a vehicle and a later one: the same, or a higher version; out of service is for good. -/
def FleetVehicle.Later (v v' : FleetVehicle) : Prop :=
  v' = v ∨ (v.version < v'.version ∧ (v.status = .outOfService → v'.status = .outOfService))

theorem FleetVehicle.transition_ok {v v' : FleetVehicle} {target : VehicleOperationalStatus} {reason : String}
    {now : ℕ} :
    v.transition target reason now = .ok v' ↔ target ∈ v.status.transitions ∧
      v' = { v with status := target, statusReason := some reason, statusChangedAt := some now } := by
  unfold transition
  rw [bind_eq_ok]
  constructor
  · rintro ⟨⟨⟩, hreq, h⟩
    exact ⟨requireTransition_ok.mp hreq, (Except.ok.inj h).symm⟩
  · rintro ⟨hmem, rfl⟩
    exact ⟨(), requireTransition_ok.mpr hmem, rfl⟩

variable {target : RescueStatus} {id t code : String} {commits : Bool} {snapshot : OperationCaseSnapshot}
  {bay : MaintenanceBay} {status : VehicleOperationalStatus}

namespace Store

variable {s : Store}

theorem vehicleForUpdate_ok {v : FleetVehicle} :
    s.vehicleForUpdate id = .ok v ↔ s.vehicles.find id = some v := by
  unfold vehicleForUpdate
  cases s.vehicles.find id with
  | none => exact iff_of_false (fun h => by cases h) fun h => by cases h
  | some v' =>
    constructor
    · intro h
      rw [Except.ok.inj h]
    · intro h
      rw [Option.some.inj h]

theorem find_writeVehicle {v w : FleetVehicle} (h : s.vehicles.find v.vehicleId = some w) (id : String) :
    (s.writeVehicle v).vehicles.find id =
      if id = v.vehicleId then some { v with version := v.version + 1 } else s.vehicles.find id := by
  have hraised : s.vehicles.find { v with version := v.version + 1 }.vehicleId = some w := h
  exact Table.find_replace_of hraised id

/-- Every vehicle is there, and later. -/
def Evolves (s s' : Store) : Prop :=
  ∀ id v, s.vehicles.find id = some v → ∃ v', s'.vehicles.find id = some v' ∧ v.Later v'

theorem Evolves.of_eq {s' : Store} (h : s'.vehicles = s.vehicles) : s.Evolves s' := by
  intro id v hv
  exact ⟨v, by rw [h]; exact hv, .inl rfl⟩

theorem Evolves.trans {a b c : Store} (hab : a.Evolves b) (hbc : b.Evolves c) : a.Evolves c := by
  intro id v hv
  obtain ⟨v', hv', hlater⟩ := hab id v hv
  obtain ⟨v'', hv'', hlater'⟩ := hbc id v' hv'
  refine ⟨v'', hv'', ?_⟩
  rcases hlater with rfl | ⟨hlt, hout⟩
  · exact hlater'
  · rcases hlater' with rfl | ⟨hlt', hout'⟩
    · exact .inr ⟨hlt, hout⟩
    · exact .inr ⟨hlt.trans hlt', fun h => hout' (hout h)⟩

theorem Evolves.write {v w : FleetVehicle} (h : s.vehicles.find v.vehicleId = some w)
    (hversion : v.version = w.version) (hout : w.status = .outOfService → v.status = .outOfService) :
    s.Evolves (s.writeVehicle v) := by
  intro id u hu
  rw [find_writeVehicle h]
  split
  · rename_i hid
    rw [hid, h, Option.some.injEq] at hu
    subst hu
    exact ⟨_, rfl, .inr ⟨by show w.version < v.version + 1; omega, hout⟩⟩
  · exact ⟨u, hu, .inl rfl⟩

/-! ### The end of a transaction -/

variable {mission : RescueMission}

variable {order : MaintenanceOrder}

theorem case_ok {vehicle : FleetVehicle} (ho : s.orders.find mission.taskId = some order)
    (hv : s.vehicles.find mission.vehicleId = some vehicle) : ∃ snapshot, s.case mission = .ok snapshot := by
  unfold case
  rw [ho, hv]
  exact ⟨_, rfl⟩

theorem commit_eq {vehicle : FleetVehicle} (ho : s.orders.find mission.taskId = some order)
    (hv : s.vehicles.find mission.vehicleId = some vehicle) (commits : Bool) :
    ∃ snapshot, s.commit mission commits =
      if commits then .ok (snapshot, s) else .error .databaseError := by
  obtain ⟨snapshot, hcase⟩ := case_ok ho hv
  refine ⟨snapshot, ?_⟩
  unfold commit
  rw [hcase]
  cases commits <;> rfl

theorem commit_ok {s' : Store} (h : s.commit mission commits = .ok (snapshot, s')) : s' = s := by
  unfold commit at h
  obtain ⟨snapshot', -, h⟩ := bind_eq_ok.mp h
  split at h
  · exact (Prod.mk.inj (Except.ok.inj h)).2.symm
  · cases h

/-! ### A new case -/

variable {request : BreakdownCaseRequest}

theorem breakDown_ok {s' : Store} (h : s.breakDown request = .ok s') :
    ∃ v v', s.vehicles.find request.vehicleId = some v ∧ .broken ∈ v.status.transitions ∧
      v'.vehicleId = request.vehicleId ∧ v'.status = .waitingRescue ∧ v'.version = v.version ∧
      s' = s.writeVehicle v' := by
  unfold breakDown at h
  obtain ⟨v, hv, h⟩ := bind_eq_ok.mp h
  obtain ⟨v₁, h₁, h⟩ := bind_eq_ok.mp h
  obtain ⟨v₂, h₂, h⟩ := bind_eq_ok.mp h
  rw [vehicleForUpdate_ok] at hv
  obtain ⟨hbroken, rfl⟩ := FleetVehicle.transition_ok.mp h₁
  obtain ⟨-, rfl⟩ := FleetVehicle.transition_ok.mp h₂
  refine ⟨v, _, hv, hbroken, ?_, ?_, ?_, (Except.ok.inj h).symm⟩
  · show v.vehicleId = request.vehicleId
    exact Table.find_key hv
  · rfl
  · rfl

theorem takeOver_ok {s' : Store} (h : s.takeOver request = .ok s') :
    s' = s ∨ ∃ v v', s.vehicles.find v'.vehicleId = some v ∧ .dispatching ∈ v.status.transitions ∧
      v'.version = v.version ∧ v'.status = .inTransit ∧ s' = s.writeVehicle v' := by
  unfold takeOver at h
  split at h
  · exact .inl (Except.ok.inj h).symm
  · obtain ⟨v, hv, h⟩ := bind_eq_ok.mp h
    obtain ⟨v₁, h₁, h⟩ := bind_eq_ok.mp h
    obtain ⟨v₂, h₂, h⟩ := bind_eq_ok.mp h
    rw [vehicleForUpdate_ok] at hv
    obtain ⟨hsent, rfl⟩ := FleetVehicle.transition_ok.mp h₁
    obtain ⟨-, rfl⟩ := FleetVehicle.transition_ok.mp h₂
    refine .inr ⟨v, _, ?_, hsent, ?_, ?_, (Except.ok.inj h).symm⟩
    · show s.vehicles.find v.vehicleId = some v
      rw [Table.find_key hv]
      exact hv
    · rfl
    · rfl

theorem insertCase_ok {s' : Store} (h : s.insertCase request bay = .ok s') :
    ∃ missions orders, s.missions.add (newMission request) = some missions ∧
      s.orders.add (newOrder request bay) = some orders ∧
      (∀ t order, s.orders.find t = some order →
        order.orderNo ≠ orderNo request.taskId request.occurredAt) ∧
      s' = { s with missions := missions, orders := orders } := by
  unfold insertCase at h
  dsimp only at h
  split at h
  · cases h
  · rename_i hfree
    split at h
    · rename_i missions orders hmissions horders
      refine ⟨missions, orders, hmissions, horders, fun t order horder hno => hfree (.inr ?_),
        (Except.ok.inj h).symm⟩
      exact List.mem_map.mpr ⟨order, Table.find_mem horder, hno⟩
    · cases h

theorem freeUnit_ok {unit : RescueUnit} (h : s.freeUnit id = .ok unit) :
    s.units.find id = some unit ∧ unit.status = .available := by
  unfold freeUnit at h
  split at h
  · rename_i unit' hfind
    split at h
    · rename_i hfree
      cases h
      exact ⟨hfind, hfree⟩
    · cases h
  · cases h

theorem freeBay_ok {locked : List String} (h : s.freeBay locked = .ok bay) :
    s.bays.find bay.bayCode = some bay ∧ bay.status = .available := by
  unfold freeBay at h
  split at h
  · rename_i bay' hmin
    cases h
    obtain ⟨hmem, hfree⟩ := List.mem_filter.mp (List.argmin_mem hmin)
    exact ⟨Table.find_of_mem hmem, (of_decide_eq_true hfree).1⟩
  · cases h

theorem free_of_broken (h : .broken ∈ status.transitions) :
    underCase status = false ∧ status ≠ .outOfService := by
  cases status <;> simp [VehicleOperationalStatus.transitions] at h <;> exact ⟨rfl, by decide⟩

theorem free_of_dispatching
    (h : .dispatching ∈ status.transitions) : underCase status = false ∧ status ≠ .outOfService := by
  cases status <;> simp [VehicleOperationalStatus.transitions] at h <;> exact ⟨rfl, by decide⟩

theorem vehicles_of_create {broken relieved : Store} (hbroken : s.breakDown request = .ok broken)
    (hrelieved : broken.takeOver request = .ok relieved) :
    (∃ v, s.vehicles.find request.vehicleId = some v ∧ underCase v.status = false) ∧
      (∃ v, relieved.vehicles.find request.vehicleId = some v ∧ v.status = .waitingRescue) ∧
      (∀ id v, s.vehicles.find id = some v → underCase v.status = true →
        relieved.vehicles.find id = some v) ∧
      (∀ id v, relieved.vehicles.find id = some v → underCase v.status = true →
        id = request.vehicleId ∨ s.vehicles.find id = some v) ∧ s.Evolves relieved ∧
      relieved = { s with vehicles := relieved.vehicles } := by
  obtain ⟨v, v', hfind, hfree, hid, hstatus, hversion, rfl⟩ := breakDown_ok hbroken
  obtain ⟨hnot, hservice⟩ := free_of_broken hfree
  have hv' : s.vehicles.find v'.vehicleId = some v := by
    rw [hid]
    exact hfind
  have hwaits : (s.writeVehicle v').vehicles.find request.vehicleId =
      some { v' with version := v'.version + 1 } := by
    rw [find_writeVehicle hv', if_pos hid.symm]
  have hothers : ∀ id u, s.vehicles.find id = some u → underCase u.status = true →
      (s.writeVehicle v').vehicles.find id = some u := by
    intro id u hu hunder
    rw [find_writeVehicle hv', if_neg]
    · exact hu
    · rintro rfl
      rw [hv', Option.some.injEq] at hu
      rw [hu, hunder] at hnot
      cases hnot
  have hbefore : ∀ id u, (s.writeVehicle v').vehicles.find id = some u →
      id = request.vehicleId ∨ s.vehicles.find id = some u := by
    intro id u hu
    rw [find_writeVehicle hv'] at hu
    split at hu
    · rename_i heq
      exact .inl (heq.trans hid)
    · exact .inr hu
  have hevolves : s.Evolves (s.writeVehicle v') := .write hv' hversion fun h => absurd h hservice
  refine ⟨⟨v, hfind, hnot⟩, ?_⟩
  rcases takeOver_ok hrelieved with rfl | ⟨w, w', hw, hsent, hwversion, hdriving, rfl⟩
  · exact ⟨⟨_, hwaits, hstatus⟩, hothers, fun id u hu _ => hbefore id u hu, hevolves, rfl⟩
  · obtain ⟨hwnot, hwservice⟩ := free_of_dispatching hsent
    -- the replacement is not the broken vehicle, which waits for its rescue
    have hne : request.vehicleId ≠ w'.vehicleId := by
      intro heq
      rw [← heq, hwaits, Option.some.injEq] at hw
      have hwaiting : w.status = .waitingRescue := by
        rw [← hw]
        exact hstatus
      rw [hwaiting] at hwnot
      cases hwnot
    refine ⟨⟨{ v' with version := v'.version + 1 }, ?_, hstatus⟩, ?_, ?_, ?_, rfl⟩
    · rw [find_writeVehicle hw, if_neg hne]
      exact hwaits
    · intro id u hu hunder
      rw [find_writeVehicle hw, if_neg]
      · exact hothers id u hu hunder
      · rintro rfl
        rw [hothers _ u hu hunder, Option.some.injEq] at hw
        rw [← hw, hunder] at hwnot
        cases hwnot
    · intro id u hu hunder
      rw [find_writeVehicle hw] at hu
      split at hu
      · cases hu
        have hcase : underCase w'.status = true := hunder
        rw [hdriving] at hcase
        cases hcase
      · exact hbefore id u hu
    · exact hevolves.trans (.write hw hwversion fun h => absurd h hwservice)

theorem createBreakdownCase_ok {s' : Store} {locked : List String}
    (h : s.createBreakdownCase request locked commits = .ok (snapshot, s')) :
    s' = s ∨ (∃ bay, s.Created s' request bay) ∧ s.Evolves s' ∧
      ∀ id v, s'.vehicles.find id = some v → underCase v.status = true →
        id = request.vehicleId ∨ s.vehicles.find id = some v := by
  unfold createBreakdownCase at h
  split at h
  · obtain ⟨snapshot', -, h⟩ := bind_eq_ok.mp h
    exact .inl (Prod.mk.inj (Except.ok.inj h)).2.symm
  · rename_i hfresh
    right
    obtain ⟨-, -, h⟩ := bind_eq_ok.mp h
    obtain ⟨unit, hunit, h⟩ := bind_eq_ok.mp h
    obtain ⟨bay, hbay, h⟩ := bind_eq_ok.mp h
    obtain ⟨broken, hbroken, h⟩ := bind_eq_ok.mp h
    obtain ⟨relieved, hrelieved, h⟩ := bind_eq_ok.mp h
    obtain ⟨inserted, hinserted, h⟩ := bind_eq_ok.mp h
    obtain rfl := commit_ok h
    obtain ⟨hunitFind, hunitFree⟩ := freeUnit_ok hunit
    obtain ⟨hbayFind, hbayFree⟩ := freeBay_ok hbay
    obtain ⟨hvehicle, hwaits, hothers, hbefore, hevolves, heq⟩ :=
      vehicles_of_create hbroken hrelieved
    obtain ⟨missions, orders, hmissions, horders, hnumbers, rfl⟩ := insertCase_ok hinserted
    rw [heq] at hmissions horders hnumbers
    have hunitId : unit.unitId = request.rescueUnitId := Table.find_key hunitFind
    have hunits : relieved.units = s.units := by rw [heq]
    have hbays : relieved.bays = s.bays := by rw [heq]
    have hwritten : s.units.find { unit with status := .dispatched }.unitId = some unit := by
      show s.units.find unit.unitId = some unit
      rw [hunitId]
      exact hunitFind
    have hreserved : ∀ no, s.bays.find
        { bay with status := .reserved, currentOrderNo := some no }.bayCode = some bay :=
      fun _ => hbayFind
    refine ⟨⟨bay, hfresh, ⟨unit, hunitFind, hunitFree⟩, ⟨hbayFind, hbayFree⟩, hvehicle, hnumbers,
      ?_, ?_, ?_, ?_, ?_, hwaits, hothers⟩, ?_, hbefore⟩
    · intro t
      exact Table.find_add hmissions t
    · intro t
      exact Table.find_add horders t
    · refine ⟨{ unit with status := .dispatched }, ?_, rfl⟩
      show (relieved.units.replace _).find _ = _
      rw [hunits, Table.find_replace_of hwritten, if_pos hunitId.symm]
    · intro id hid
      show (relieved.units.replace _).find _ = _
      rw [hunits, Table.find_replace_of hwritten,
        if_neg fun heq => hid (heq.trans hunitId)]
    · intro code
      show (relieved.bays.replace _).find _ = _
      rw [hbays]
      exact Table.find_replace_of (hreserved _) code
    · intro id v hv
      exact hevolves id v hv

/-! ### The rescue timer -/

theorem dueMission_some {now : ℕ} {locked : List String} (h : s.dueMission now locked = some mission) :
    s.missions.find mission.taskId = some mission ∧
      (mission.status = .dispatched ∨ mission.status = .arrived ∨ mission.status = .loaded) := by
  obtain ⟨hmem, hdue⟩ := List.mem_filter.mp (List.argmin_mem h)
  refine ⟨Table.find_of_mem hmem, ?_⟩
  have hstatus := (of_decide_eq_true hdue).1
  simpa using hstatus

theorem scheduled_of_undelivered {m : RescueStatus} {o : MaintenanceStatus}
    {want : Option VehicleOperationalStatus} (h : expected m o = some want)
    (hm : m.undelivered = true) : o = .scheduled := by
  revert h hm
  cases m <;> cases o <;> simp only [expected] <;> rintro ⟨⟩ <;> intro hm <;> trivial

theorem InStep.towed (hs : s.InStep) (hm : s.missions.find mission.taskId = some mission)
    (hund : mission.status.undelivered = true) :
    ∃ order vehicle, s.orders.find mission.taskId = some order ∧ order.status = .scheduled ∧
      mission.vehicleId = order.vehicleId ∧ s.vehicles.find order.vehicleId = some vehicle ∧
      expected mission.status .scheduled = some (some vehicle.status) := by
  obtain ⟨order, ho⟩ := hs.order hm
  obtain ⟨hsame, want, hwant, -⟩ := hs.fits _ mission order hm ho
  have hscheduled := scheduled_of_undelivered hwant hund
  obtain ⟨m, vehicle, hm', -, hfind, hexpected⟩ := hs.vehicle ho (by rw [hscheduled]; rfl)
  rw [hm, Option.some.injEq] at hm'
  subst hm'
  rw [hscheduled] at hexpected
  exact ⟨order, vehicle, ho, hscheduled, hsame, hfind, hexpected⟩

theorem find_recordRescue {now : ℕ} (hm : s.missions.find mission.taskId = some mission) (t : String) :
    (s.recordRescue mission target now).missions.find t =
      if t = mission.taskId then some (advancedMission mission target now)
      else s.missions.find t := by
  have hkey : s.missions.find (advancedMission mission target now).taskId = some mission := hm
  exact Table.find_replace_of hkey t

theorem advanceOneDueRescue_eq {effected : Store} {now : ℕ} {locked : List String} {vehicle : FleetVehicle}
    (hdue : s.dueMission now locked = some mission) (htarget : rescueTarget mission.status = .ok target)
    (hallowed : target ∈ mission.status.transitions)
    (heffect : (s.recordRescue mission target now).rescueEffect mission target now = .ok effected)
    (ho : effected.orders.find mission.taskId = some order)
    (hv : effected.vehicles.find mission.vehicleId = some vehicle) (commits : Bool) :
    ∃ snapshot, s.advanceOneDueRescue now locked commits =
      if commits then .ok (some snapshot, effected) else .error .databaseError := by
  have ho' : effected.orders.find (advancedMission mission target now).taskId = some order := ho
  have hv' : effected.vehicles.find (advancedMission mission target now).vehicleId = some vehicle := hv
  obtain ⟨snapshot, hcommit⟩ := commit_eq ho' hv' commits
  refine ⟨snapshot, ?_⟩
  unfold advanceOneDueRescue
  have hreq : requireRescueTransition mission.status target = .ok () :=
    requireTransition_ok.mpr hallowed
  simp only [hdue, htarget, hreq, heffect, hcommit, bind, Except.bind]
  cases commits <;> rfl

/-- What a timer does with a case: it moves it on, unless the database fails. -/
def Advances (s : Store) (result : Except OperationError (Option OperationCaseSnapshot × Store))
    (commits : Bool) (mission mission' : RescueMission) (order order' : MaintenanceOrder) : Prop :=
  ∃ s' snapshot, s.Moved s' mission mission' order order' ∧ s.Evolves s' ∧
    result = if commits then .ok (some snapshot, s') else .error .databaseError

section Rescue

variable {s : Store} {now : ℕ} {locked : List String} {mission : RescueMission}
  {order : MaintenanceOrder} {vehicle : FleetVehicle}

theorem find_kept {ρ : Type} {find : String → Option ρ} {k : String} {r : ρ} (h : find k = some r)
    (t : String) : find t = if t = k then some r else find t := by
  split
  · rename_i ht
    rw [ht, h]
  · rfl

theorem InStep.arrives (hdue : s.dueMission now locked = some mission)
    (hm : s.missions.find mission.taskId = some mission) (hstatus : mission.status = .dispatched)
    (ho : s.orders.find mission.taskId = some order) (hscheduled : order.status = .scheduled)
    (hsame : mission.vehicleId = order.vehicleId) (hv : s.vehicles.find order.vehicleId = some vehicle)
    (hwaits : vehicle.status = .waitingRescue) (commits : Bool) :
    s.Advances (s.advanceOneDueRescue now locked commits) commits mission
      (advancedMission mission .arrived now) order order := by
  have heffect : (s.recordRescue mission .arrived now).rescueEffect mission .arrived now =
      .ok (s.recordRescue mission .arrived now) := rfl
  have ho' : (s.recordRescue mission .arrived now).orders.find mission.taskId = some order := ho
  have hv' : (s.recordRescue mission .arrived now).vehicles.find mission.vehicleId = some vehicle := by
    rw [hsame]
    exact hv
  obtain ⟨snapshot, heq⟩ := advanceOneDueRescue_eq hdue (by rw [hstatus]; rfl)
    (by rw [hstatus]; decide) heffect ho' hv' commits
  refine ⟨_, snapshot, ⟨hm, ho, by rw [hscheduled]; rfl, find_recordRescue hm, find_kept ho,
    ⟨rfl, rfl⟩, ⟨rfl, rfl, rfl, rfl⟩, fun _ _ => rfl, ⟨vehicle, some .waitingRescue, hv, ?_, ?_⟩,
    fun _ => by rw [hstatus]; rfl, fun _ _ => rfl, fun _ => rfl, fun _ _ => rfl, ?_⟩,
    .of_eq rfl, heq⟩
  · rw [hscheduled]
    rfl
  · intro status h
    rw [hwaits]
    exact Option.some.inj h
  · rw [hscheduled]
    intro h
    cases h

theorem InStep.loads (hdue : s.dueMission now locked = some mission)
    (hm : s.missions.find mission.taskId = some mission) (hstatus : mission.status = .arrived)
    (ho : s.orders.find mission.taskId = some order) (hscheduled : order.status = .scheduled)
    (hsame : mission.vehicleId = order.vehicleId) (hv : s.vehicles.find order.vehicleId = some vehicle)
    (hwaits : vehicle.status = .waitingRescue) (commits : Bool) :
    s.Advances (s.advanceOneDueRescue now locked commits) commits mission
      (advancedMission mission .loaded now) order order := by
  let recorded := s.recordRescue mission .loaded now
  let towed : FleetVehicle := { vehicle with
    status := .inRescue, statusReason := some "故障车辆已装载拖运", statusChangedAt := some now }
  have hid : vehicle.vehicleId = order.vehicleId := Table.find_key hv
  have hrow : recorded.vehicles.find towed.vehicleId = some vehicle := by
    show s.vehicles.find vehicle.vehicleId = some vehicle
    rw [hid]
    exact hv
  have heffect : recorded.rescueEffect mission .loaded now = .ok (recorded.writeVehicle towed) := by
    have hfound : recorded.vehicleForUpdate mission.vehicleId = .ok vehicle := by
      rw [vehicleForUpdate_ok, hsame]
      exact hv
    have hmoved : vehicle.transition .inRescue "故障车辆已装载拖运" now = .ok towed :=
      FleetVehicle.transition_ok.mpr ⟨by rw [hwaits]; decide, rfl⟩
    simp only [rescueEffect, hfound, hmoved, bind, Except.bind]
    rfl
  have hv' : (recorded.writeVehicle towed).vehicles.find order.vehicleId =
      some { towed with version := towed.version + 1 } := by
    rw [find_writeVehicle hrow, if_pos hid.symm]
  have ho' : (recorded.writeVehicle towed).orders.find mission.taskId = some order := ho
  obtain ⟨snapshot, heq⟩ := advanceOneDueRescue_eq hdue (by rw [hstatus]; rfl)
    (by rw [hstatus]; decide) heffect ho' (hsame ▸ hv') commits
  refine ⟨recorded.writeVehicle towed, snapshot, ⟨hm, ho, by rw [hscheduled]; rfl,
    find_recordRescue hm, find_kept ho, ⟨rfl, rfl⟩, ⟨rfl, rfl, rfl, rfl⟩, ?_,
    ⟨_, some .inRescue, hv', ?_, ?_⟩,
    fun _ => by rw [hstatus]; rfl, fun _ _ => rfl, fun _ => rfl, fun _ _ => rfl, ?_⟩, ?_, heq⟩
  · intro id hne
    rw [find_writeVehicle hrow, if_neg fun h => hne (h.trans hid)]
    rfl
  · rw [hscheduled]
    rfl
  · intro status h
    exact Option.some.inj h
  · rw [hscheduled]
    intro h
    cases h
  · refine Evolves.trans (b := recorded) (.of_eq rfl) (.write hrow rfl fun h => ?_)
    rw [hwaits] at h
    cases h

theorem releaseUnit_eq (s : Store) (mission : RescueMission) :
    s.releaseUnit mission = { s with units := (s.releaseUnit mission).units } := by
  unfold releaseUnit
  cases s.units.find mission.rescueUnitId with
  | none => rfl
  | some unit => rfl

theorem releaseUnit_other (s : Store) (mission : RescueMission)
    (h : id ≠ mission.rescueUnitId) : (s.releaseUnit mission).units.find id = s.units.find id := by
  unfold releaseUnit
  split
  · rfl
  · rename_i unit hunit
    have hkey : unit.unitId = mission.rescueUnitId := Table.find_key hunit
    exact Table.find_replace_ne _ _ fun heq => h (heq.trans hkey)

/-- A delivery that is due hands the vehicle over from its mission to its order. -/
theorem InStep.delivers (hdue : s.dueMission now locked = some mission)
    (hm : s.missions.find mission.taskId = some mission) (hstatus : mission.status = .loaded)
    (ho : s.orders.find mission.taskId = some order) (hscheduled : order.status = .scheduled)
    (hsame : mission.vehicleId = order.vehicleId) (hv : s.vehicles.find order.vehicleId = some vehicle)
    (htowed : vehicle.status = .inRescue) (commits : Bool) :
    s.Advances (s.advanceOneDueRescue now locked commits) commits mission
      (advancedMission mission .delivered now) order
      { order with status := .waitingBay, nextTransitionAt := some (now + 1) } := by
  let recorded := s.recordRescue mission .delivered now
  let received : FleetVehicle := { vehicle with
    status := .maintenance, statusReason := some "车辆已送达县域维修站", statusChangedAt := some now
    currentNodeId := mission.stationNodeId }
  let waiting : MaintenanceOrder :=
    { order with status := .waitingBay, nextTransitionAt := some (now + 1) }
  let released := (recorded.writeVehicle received).releaseUnit mission
  let effected : Store := { released with orders := released.orders.replace waiting }
  have hid : vehicle.vehicleId = order.vehicleId := Table.find_key hv
  have hrow : recorded.vehicles.find received.vehicleId = some vehicle := by
    show s.vehicles.find vehicle.vehicleId = some vehicle
    rw [hid]
    exact hv
  have hreleased : released = { recorded.writeVehicle received with units := released.units } :=
    releaseUnit_eq _ mission
  have horders : released.orders = s.orders := by rw [hreleased]; rfl
  have heffect : recorded.rescueEffect mission .delivered now = .ok effected := by
    have hfound : recorded.vehicleForUpdate mission.vehicleId = .ok vehicle := by
      rw [vehicleForUpdate_ok, hsame]
      exact hv
    have hmoved : vehicle.transition .maintenance "车辆已送达县域维修站" now =
        .ok { vehicle with
          status := .maintenance, statusReason := some "车辆已送达县域维修站"
          statusChangedAt := some now } :=
      FleetVehicle.transition_ok.mpr ⟨by rw [htowed]; decide, rfl⟩
    have hreceived : recorded.receiveVehicle mission now = .ok (recorded.writeVehicle received) := by
      simp only [receiveVehicle, hfound, hmoved, bind, Except.bind]
      rfl
    have hawaits : released.awaitBay mission.taskId now = .ok effected := by
      have hreq : requireMaintenanceTransition order.status .waitingBay = .ok () :=
        requireTransition_ok.mpr (by rw [hscheduled]; decide)
      have hfind : released.orders.find mission.taskId = some order := by
        rw [horders]
        exact ho
      simp only [awaitBay, hfind, hreq, bind, Except.bind]
      rfl
    simp only [rescueEffect, hreceived, bind, Except.bind]
    exact hawaits
  have htask : order.taskId = mission.taskId := Table.find_key ho
  have hwritten : released.orders.find waiting.taskId = some order := by
    rw [horders]
    show s.orders.find order.taskId = some order
    rw [htask]
    exact ho
  have ho' : ∀ t, effected.orders.find t =
      if t = mission.taskId then some waiting else s.orders.find t := by
    intro t
    show (released.orders.replace waiting).find t = _
    rw [Table.find_replace_of hwritten, horders]
    show (if t = order.taskId then _ else _) = _
    rw [htask]
  have hv' : ∀ id, effected.vehicles.find id =
      if id = order.vehicleId then some { received with version := received.version + 1 }
      else s.vehicles.find id := by
    intro id
    show released.vehicles.find id = _
    rw [hreleased]
    show (recorded.writeVehicle received).vehicles.find id = _
    rw [find_writeVehicle hrow]
    show (if id = vehicle.vehicleId then _ else _) = _
    rw [hid]
    rfl
  have hu' : ∀ id, id ≠ mission.rescueUnitId → effected.units.find id = s.units.find id := by
    intro id hne
    exact releaseUnit_other (recorded.writeVehicle received) mission hne
  obtain ⟨snapshot, heq⟩ := advanceOneDueRescue_eq hdue (by rw [hstatus]; rfl)
    (by rw [hstatus]; decide) heffect (by rw [ho', if_pos rfl])
    (by rw [hv', if_pos hsame]) commits
  refine ⟨effected, snapshot, ⟨hm, ho, by rw [hscheduled]; rfl, ?_, ho', ⟨rfl, rfl⟩,
    ⟨rfl, rfl, rfl, rfl⟩, ?_, ⟨_, some .maintenance, by rw [hv', if_pos rfl], rfl, ?_⟩, ?_, ?_,
    fun _ => rfl, ?_, ?_⟩, ?_, heq⟩
  · intro t
    show released.missions.find t = _
    rw [hreleased]
    exact find_recordRescue hm t
  · intro id hne
    rw [hv', if_neg hne]
  · intro status h
    exact Option.some.inj h
  · intro h
    cases h
  · rintro id (hne | hsame)
    · exact hu' id hne
    · rw [hstatus] at hsame
      cases hsame
  · intro code _
    show released.bays.find code = _
    rw [hreleased]
    rfl
  · intro h
    cases h
  · refine Evolves.trans (b := recorded.writeVehicle received) (Evolves.trans (b := recorded)
      (.of_eq rfl) (.write hrow rfl fun h => ?_)) (.of_eq ?_)
    · rw [htowed] at h
      cases h
    · show released.vehicles = _
      rw [hreleased]

theorem advanceOneDueRescue_spec (hs : s.InStep) (now : ℕ) (locked : List String) (commits : Bool) :
    s.advanceOneDueRescue now locked commits = .ok (none, s) ∨
      ∃ mission mission' order order', mission.status.undelivered = true ∧
        (order' = order ∨ order'.status = .waitingBay) ∧
        s.Advances (s.advanceOneDueRescue now locked commits) commits mission mission' order
          order' := by
  cases hdue : s.dueMission now locked with
  | none =>
    left
    unfold advanceOneDueRescue
    rw [hdue]
  | some mission =>
    right
    obtain ⟨hm, hactive⟩ := dueMission_some hdue
    have hund : mission.status.undelivered = true := by
      rcases hactive with h | h | h <;> rw [h] <;> rfl
    obtain ⟨order, vehicle, ho, hscheduled, hsame, hv, hexpected⟩ := hs.towed hm hund
    rcases hactive with h | h | h
    · rw [h] at hexpected
      exact ⟨_, _, _, _, hund, .inl rfl, InStep.arrives hdue hm h ho hscheduled hsame hv
        (Option.some.inj (Option.some.inj hexpected)).symm commits⟩
    · rw [h] at hexpected
      exact ⟨_, _, _, _, hund, .inl rfl, InStep.loads hdue hm h ho hscheduled hsame hv
        (Option.some.inj (Option.some.inj hexpected)).symm commits⟩
    · rw [h] at hexpected
      exact ⟨_, _, _, _, hund, .inr rfl, InStep.delivers hdue hm h ho hscheduled hsame hv
        (Option.some.inj (Option.some.inj hexpected)).symm commits⟩

end Rescue

/-! ### The maintenance timer -/

theorem dueOrder_some {now : ℕ} {locked : List String} (h : s.dueOrder now locked = some order) :
    s.orders.find order.taskId = some order ∧ (order.status = .waitingBay ∨
      order.status = .diagnosing ∨ order.status = .repairing ∨ order.status = .qaPending) := by
  obtain ⟨hmem, hdue⟩ := List.mem_filter.mp (List.argmin_mem h)
  refine ⟨Table.find_of_mem hmem, ?_⟩
  have hstatus := (of_decide_eq_true hdue).1
  simpa using hstatus

theorem advancedOrder_kept (order : MaintenanceOrder) (target : MaintenanceStatus) (now : ℕ) :
    (advancedOrder order target now).taskId = order.taskId ∧
      (advancedOrder order target now).status = target ∧
      (advancedOrder order target now).manualInspectionRequired = order.manualInspectionRequired ∧
      (advancedOrder order target now).vehicleId = order.vehicleId ∧
      (advancedOrder order target now).bayCode = order.bayCode ∧
      (advancedOrder order target now).orderNo = order.orderNo ∧
      (target.unfinished = true →
        (advancedOrder order target now).inspectionResult = order.inspectionResult) := by
  cases target <;> exact ⟨rfl, rfl, rfl, rfl, rfl, rfl, fun h => by first | rfl | cases h⟩

theorem find_recordMaintenance {target : MaintenanceStatus} {now : ℕ}
    (ho : s.orders.find order.taskId = some order) (t : String) :
    (s.recordMaintenance order target now).orders.find t =
      if t = order.taskId then some (advancedOrder order target now) else s.orders.find t := by
  have hkey : (advancedOrder order target now).taskId = order.taskId :=
    (advancedOrder_kept order target now).1
  have hfind : s.orders.find (advancedOrder order target now).taskId = some order := by
    rw [hkey]
    exact ho
  show (s.orders.replace _).find t = _
  rw [Table.find_replace_of hfind, hkey]

theorem commitOrder_eq {vehicle : FleetVehicle} (hm : s.missions.find t = some mission)
    (ho : s.orders.find t = some order) (hv : s.vehicles.find mission.vehicleId = some vehicle)
    (commits : Bool) :
    ∃ snapshot, s.commitOrder t commits =
      if commits then .ok (snapshot, s) else .error .databaseError := by
  have hkey : mission.taskId = t := Table.find_key hm
  unfold commitOrder
  rw [hm]
  exact commit_eq (by rw [hkey]; exact ho) hv commits

theorem commitOrder_ok {s' : Store} (h : s.commitOrder t commits = .ok (snapshot, s')) : s' = s := by
  unfold commitOrder at h
  split at h
  · cases h
  · exact commit_ok h

section Maintenance

variable {s s' : Store} {now : ℕ} {locked : List String} {mission : RescueMission}
  {order order' : MaintenanceOrder} {vehicle vehicle' : FleetVehicle}

theorem Moved.serviced (hm : s.missions.find order.taskId = some mission)
    (ho : s.orders.find order.taskId = some order) (hopen : order.status.unfinished = true)
    (hdelivered : mission.status = .delivered) (hmissions : s'.missions = s.missions)
    (hunits : s'.units = s.units) (horders : ∀ t, s'.orders.find t =
      if t = order.taskId then some order' else s.orders.find t)
    (hkept : order'.vehicleId = order.vehicleId ∧ order'.bayCode = order.bayCode ∧
      order'.orderNo = order.orderNo ∧
      order'.manualInspectionRequired = order.manualInspectionRequired)
    (hothers : ∀ id, id ≠ order.vehicleId → s'.vehicles.find id = s.vehicles.find id)
    (hvehicle : s'.vehicles.find order.vehicleId = some vehicle')
    (hfits : ∃ want, expected .delivered order'.status = some want ∧
      ∀ status, want = some status → vehicle'.status = status)
    (huninspected : order'.status.unfinished = true →
      order'.inspectionResult = order.inspectionResult)
    (hbays : ∀ code, order.bayCode ≠ some code ∨ order'.status.unfinished = true →
      s'.bays.find code = s.bays.find code)
    (hfreed : order'.status.unfinished = false → ∀ code bay, order.bayCode = some code →
      s'.bays.find code = some bay → bay.currentOrderNo = none) :
    s.Moved s' mission mission order order' := by
  have hkey : mission.taskId = order.taskId := Table.find_key hm
  obtain ⟨want, hwant, hstatus⟩ := hfits
  refine ⟨hkey ▸ hm, hkey ▸ ho, hopen, ?_, hkey ▸ horders, ⟨rfl, rfl⟩, hkept, hothers,
    ⟨vehicle', want, hvehicle, hdelivered ▸ hwant, hstatus⟩, fun h => h, ?_, huninspected, hbays,
    hfreed⟩
  · rw [hmissions, hkey]
    exact find_kept hm
  · intro id _
    rw [hunits]

theorem InStep.stationed (hs : s.InStep) (ho : s.orders.find order.taskId = some order)
    (hopen : order.status.unfinished = true) (hactive : order.status ≠ .scheduled) :
    ∃ mission vehicle, s.missions.find order.taskId = some mission ∧ mission.status = .delivered ∧
      mission.vehicleId = order.vehicleId ∧ s.vehicles.find order.vehicleId = some vehicle ∧
      expected .delivered order.status = some (some vehicle.status) := by
  obtain ⟨mission, vehicle, hm, hsame, hv, hexpected⟩ := hs.vehicle ho hopen
  have hdelivered : mission.status = .delivered := by
    by_contra hnot
    refine hactive (scheduled_of_undelivered hexpected ?_)
    exact decide_eq_true hnot
  rw [hdelivered] at hexpected
  exact ⟨mission, vehicle, hm, hdelivered, hsame, hv, hexpected⟩

theorem releaseBay_eq (s : Store) (order : MaintenanceOrder) :
    s.releaseBay order = { s with bays := (s.releaseBay order).bays } := by
  unfold releaseBay
  cases order.bayCode.bind s.bays.find with
  | none => rfl
  | some bay => rfl

theorem releaseBay_other (s : Store) (order : MaintenanceOrder)
    (h : order.bayCode ≠ some code) : (s.releaseBay order).bays.find code = s.bays.find code := by
  unfold releaseBay
  split
  · rfl
  · rename_i bay hbay
    obtain ⟨code', hcode, hfind⟩ := Option.bind_eq_some_iff.mp hbay
    have hkey : bay.bayCode = code' := Table.find_key hfind
    refine Table.find_replace_ne _ _ fun heq => h ?_
    rw [hcode, heq]
    exact congrArg some hkey.symm

theorem releaseBay_freed (hcode : order.bayCode = some code)
    (h : (s.releaseBay order).bays.find code = some bay) : bay.currentOrderNo = none := by
  unfold releaseBay at h
  rw [hcode, Option.bind_some] at h
  cases hfind : s.bays.find code with
  | none =>
    rw [hfind] at h
    dsimp only at h
    rw [hfind] at h
    cases h
  | some bay' =>
    have hkey : bay'.bayCode = code := Table.find_key hfind
    have hrow : s.bays.find { bay' with status := .available, currentOrderNo := none }.bayCode =
        some bay' := by
      show s.bays.find bay'.bayCode = some bay'
      rw [hkey]
      exact hfind
    rw [hfind] at h
    dsimp only at h
    rw [Table.find_replace_of hrow, if_pos hkey.symm, Option.some.injEq] at h
    rw [← h]

theorem releaseVehicleAndBay_spec (s : Store) (order : MaintenanceOrder)
    (hv : s.vehicles.find vehicle.vehicleId = some vehicle) (hqa : vehicle.status = .qaPending)
    (passed : Bool) (now : ℕ) :
    ∃ effected vehicle', s.releaseVehicleAndBay order vehicle passed now = .ok effected ∧
      effected.missions = s.missions ∧ effected.orders = s.orders ∧ effected.units = s.units ∧
      effected.bays = (s.releaseBay order).bays ∧
      (∀ id, effected.vehicles.find id =
        if id = vehicle.vehicleId then some vehicle' else s.vehicles.find id) ∧
      vehicle'.status = (if passed then .available else .outOfService) ∧ s.Evolves effected := by
  let target : VehicleOperationalStatus := if passed then .available else .outOfService
  let reason := if passed then "安全质检通过，自动恢复可调度" else "安全质检未通过，停止运营"
  let moved : FleetVehicle :=
    { vehicle with status := target, statusReason := some reason, statusChangedAt := some now }
  have hmoved : vehicle.transition target reason now = .ok moved := by
    refine FleetVehicle.transition_ok.mpr ⟨?_, rfl⟩
    rw [hqa]
    show (if passed then _ else _) ∈ _
    cases passed <;> decide
  have hkeys : (releasedVehicle moved passed).vehicleId = vehicle.vehicleId ∧
      (releasedVehicle moved passed).version = vehicle.version ∧
      (releasedVehicle moved passed).status = target := by
    cases passed <;> exact ⟨rfl, rfl, rfl⟩
  have hrow : s.vehicles.find (releasedVehicle moved passed).vehicleId = some vehicle := by
    rw [hkeys.1]
    exact hv
  let written := s.writeVehicle (releasedVehicle moved passed)
  have hreleased := releaseBay_eq written order
  have hbays : (written.releaseBay order).bays = (s.releaseBay order).bays := by
    unfold releaseBay
    rw [show written.bays = s.bays from rfl]
    cases order.bayCode.bind s.bays.find with
    | none => rfl
    | some bay => rfl
  have hresult : s.releaseVehicleAndBay order vehicle passed now =
      .ok ((written.releaseBay order).event order.taskId "vehicle" vehicle.vehicleId
        (if passed then "VEHICLE_AVAILABLE" else "VEHICLE_OUT_OF_SERVICE")
        (.status (vehicleText target))) := by
    unfold releaseVehicleAndBay
    exact bind_eq_ok.mpr ⟨moved, hmoved, rfl⟩
  refine ⟨_, { releasedVehicle moved passed with
    version := (releasedVehicle moved passed).version + 1 }, hresult, ?_, ?_, ?_, hbays, ?_,
    hkeys.2.2, ?_⟩
  · show (written.releaseBay order).missions = s.missions
    rw [hreleased]
    rfl
  · show (written.releaseBay order).orders = s.orders
    rw [hreleased]
    rfl
  · show (written.releaseBay order).units = s.units
    rw [hreleased]
    rfl
  · intro id
    show (written.releaseBay order).vehicles.find id = _
    rw [hreleased]
    show written.vehicles.find id = _
    rw [find_writeVehicle hrow]
    by_cases hid : id = vehicle.vehicleId
    · rw [if_pos (hid.trans hkeys.1.symm), if_pos hid]
    · rw [if_neg fun h => hid (h.trans hkeys.1), if_neg hid]
  · refine Evolves.trans (b := written) (.write hrow hkeys.2.1 fun h => ?_) (.of_eq ?_)
    · rw [hqa] at h
      cases h
    · show (written.releaseBay order).vehicles = written.vehicles
      rw [hreleased]

theorem Moved.finished (recorded : Store) (hm : s.missions.find order.taskId = some mission)
    (hdelivered : mission.status = .delivered) (ho : s.orders.find order.taskId = some order)
    (hqa : order.status = .qaPending) (hv : s.vehicles.find order.vehicleId = some vehicle)
    (hvqa : vehicle.status = .qaPending)
    (hsame : recorded = { s with orders := recorded.orders, outbox := recorded.outbox })
    (horders : ∀ t, recorded.orders.find t =
      if t = order.taskId then some order' else s.orders.find t)
    (hkept : order'.vehicleId = order.vehicleId ∧ order'.bayCode = order.bayCode ∧
      order'.orderNo = order.orderNo ∧
      order'.manualInspectionRequired = order.manualInspectionRequired)
    (hdone : order'.status = .completed ∨ order'.status = .failed) (passed : Bool) (now : ℕ) :
    ∃ effected vehicle', recorded.releaseVehicleAndBay order' vehicle passed now = .ok effected ∧
      s.Moved effected mission mission order order' ∧ s.Evolves effected ∧
      effected.missions = s.missions ∧ effected.orders.find order.taskId = some order' ∧
      effected.vehicles.find order.vehicleId = some vehicle' ∧
      vehicle'.status = (if passed then .available else .outOfService) := by
  have hid : vehicle.vehicleId = order.vehicleId := Table.find_key hv
  have hrow : recorded.vehicles.find vehicle.vehicleId = some vehicle := by
    rw [hsame, hid]
    exact hv
  have hfinished : order'.status.unfinished = false := by
    rcases hdone with h | h <;> rw [h] <;> rfl
  obtain ⟨effected, vehicle', hresult, hmissions, horders', hunits, hbays, hvehicles, hstatus,
    hevolves⟩ := releaseVehicleAndBay_spec recorded order' hrow hvqa passed now
  have hbaysBefore : recorded.bays = s.bays := by rw [hsame]
  have hvehicle : effected.vehicles.find order.vehicleId = some vehicle' := by
    rw [hvehicles, if_pos hid.symm]
  refine ⟨effected, vehicle', hresult, ?_, ?_, ?_, ?_, hvehicle, hstatus⟩
  · refine .serviced hm ho (by rw [hqa]; rfl) hdelivered ?_ ?_ ?_ hkept ?_ hvehicle
      ⟨none, ?_, fun _ h => by cases h⟩ ?_ ?_ ?_
    · rw [hmissions, hsame]
    · rw [hunits, hsame]
    · rw [horders']
      exact horders
    · intro id hne
      rw [hvehicles, if_neg fun h => hne (h.trans hid), hsame]
    · rcases hdone with h | h <;> rw [h] <;> rfl
    · intro h
      rw [hfinished] at h
      cases h
    · rintro code (hne | h)
      · rw [hbays, releaseBay_other _ _ (by rw [hkept.2.1]; exact hne), hbaysBefore]
      · rw [hfinished] at h
        cases h
    · intro _ code bay hcode hfind
      rw [hbays] at hfind
      exact releaseBay_freed (hkept.2.1.trans hcode) hfind
  · exact Evolves.trans (.of_eq (by rw [hsame])) hevolves
  · rw [hmissions, hsame]
  · rw [horders', horders, if_pos rfl]

theorem recordInspection_ok {no decidedBy : String} {passed : Bool} {decidedAt : ℕ} (hs : s.InStep)
    (h : s.recordInspection no passed decidedAt decidedBy commits = .ok (snapshot, s')) :
    ∃ mission order order' vehicle', order.orderNo = no ∧ order.status = .qaPending ∧
      order'.status = (if passed then .completed else .failed) ∧
      s.Moved s' mission mission order order' ∧ s.Evolves s' ∧
      s'.vehicles.find order.vehicleId = some vehicle' ∧
      vehicle'.status = (if passed then .available else .outOfService) := by
  unfold recordInspection at h
  split at h
  · cases h
  · rename_i order hfind
    split at h
    · cases h
    · rename_i hqa
      rw [not_not] at hqa
      have ho : s.orders.find order.taskId = some order :=
        Table.find_of_mem (List.mem_of_find?_eq_some hfind)
      have hno : order.orderNo = no := by simpa using List.find?_some hfind
      obtain ⟨mission, vehicle, hm, hdelivered, -, hv, hexpected⟩ :=
        hs.stationed ho (by rw [hqa]; rfl) (by rw [hqa]; decide)
      have hvqa : vehicle.status = .qaPending := by
        rw [hqa] at hexpected
        exact (Option.some.inj (Option.some.inj hexpected)).symm
      obtain ⟨-, -, h₁⟩ := bind_eq_ok.mp h
      obtain ⟨found, hfound, h₂⟩ := bind_eq_ok.mp h₁
      obtain ⟨released, hreleased, h₃⟩ := bind_eq_ok.mp h₂
      have hrow : s.orders.find (decidedOrder order passed).taskId = some order := ho
      obtain rfl : vehicle = found := by
        rw [vehicleForUpdate_ok] at hfound
        exact Option.some.inj (hv.symm.trans hfound)
      obtain ⟨effected, vehicle', hresult, hmoved, hevolves, -, -, hvehicle, hstatus⟩ :=
        Moved.finished { s with
            orders := s.orders.replace (decidedOrder order passed) } hm hdelivered ho hqa hv hvqa rfl
          (Table.find_replace_of hrow) ⟨rfl, rfl, rfl, rfl⟩ (by cases passed <;> simp [decidedOrder])
          passed decidedAt
      rw [hreleased, Except.ok.injEq] at hresult
      subst hresult
      obtain rfl := commitOrder_ok h₃
      refine ⟨mission, order, decidedOrder order passed, vehicle', hno, hqa, rfl, ?_, ?_, hvehicle,
        hstatus⟩
      · exact ⟨hmoved.1, hmoved.2, hmoved.3, hmoved.4, hmoved.5, hmoved.6, hmoved.7, hmoved.8, hmoved.9,
          hmoved.10, hmoved.11, hmoved.12, hmoved.13, hmoved.14⟩
      · exact hevolves

theorem Moved.advances {effected : Store} {target : MaintenanceStatus}
    (hmoved : s.Moved effected mission mission order (advancedOrder order target now))
    (hevolves : s.Evolves effected) (hdue : s.dueOrder now locked = some order)
    (hnot : ¬ (order.status = .qaPending ∧ order.manualInspectionRequired = true ∧
      order.inspectionResult = none))
    (htarget : maintenanceTarget order.status = .ok target) (hallowed : target ∈ order.status.transitions)
    (hsame : mission.vehicleId = order.vehicleId) (hv : s.vehicles.find order.vehicleId = some vehicle)
    (heffect : (s.recordMaintenance order target now).maintenanceEffect
      (advancedOrder order target now) vehicle target now = .ok effected) (commits : Bool) :
    s.Advances (s.advanceOneDueMaintenance now locked commits) commits mission mission order
      (advancedOrder order target now) := by
  have hkey : mission.taskId = order.taskId :=
    (Table.find_key hmoved.foundOrder).symm
  obtain ⟨vehicle', want, hfind, -⟩ := hmoved.fits
  have hm' : effected.missions.find order.taskId = some mission := by
    rw [hmoved.missions, if_pos hkey.symm]
  have ho' : effected.orders.find order.taskId = some (advancedOrder order target now) := by
    rw [hmoved.orders, if_pos hkey.symm]
  have hv' : effected.vehicles.find mission.vehicleId = some vehicle' := by
    rw [hsame]
    exact hfind
  obtain ⟨snapshot, hcommit⟩ := commitOrder_eq hm' ho' hv' commits
  refine ⟨effected, snapshot, hmoved, hevolves, ?_⟩
  have hreq : requireMaintenanceTransition order.status target = .ok () :=
    requireTransition_ok.mpr hallowed
  have hfound : (s.recordMaintenance order target now).vehicleForUpdate order.vehicleId =
      .ok vehicle := vehicleForUpdate_ok.mpr hv
  unfold advanceOneDueMaintenance
  simp only [hdue, if_neg hnot, htarget, hreq, hfound, heffect, hcommit, bind, Except.bind]
  cases commits <;> rfl

theorem Moved.attended {effected : Store} {target : MaintenanceStatus} {st : VehicleOperationalStatus}
    (hm : s.missions.find order.taskId = some mission) (hdelivered : mission.status = .delivered)
    (ho : s.orders.find order.taskId = some order) (hopen : order.status.unfinished = true)
    (htarget : expected .delivered target = some (some st))
    (heffected : effected = { s.recordMaintenance order target now with
      vehicles := effected.vehicles })
    (hothers : ∀ id, id ≠ order.vehicleId → effected.vehicles.find id = s.vehicles.find id)
    (hvehicle : effected.vehicles.find order.vehicleId = some vehicle')
    (hstatus : vehicle'.status = st) :
    s.Moved effected mission mission order (advancedOrder order target now) := by
  obtain ⟨-, hto, hmanual, hkept₁, hkept₂, hkept₃, hinspected⟩ := advancedOrder_kept order target now
  have hunfinished : target.unfinished = true := by
    rw [expected_unfinished htarget]
    rfl
  refine .serviced hm ho hopen hdelivered ?_ ?_ ?_ ⟨hkept₁, hkept₂, hkept₃, hmanual⟩ hothers hvehicle
    ⟨some st, by rw [hto]; exact htarget, fun status h => hstatus.trans (Option.some.inj h)⟩
    (fun _ => hinspected hunfinished) ?_ ?_
  · rw [heffected]
    rfl
  · rw [heffected]
    rfl
  · intro t
    rw [heffected]
    exact find_recordMaintenance ho t
  · intro code _
    rw [heffected]
    rfl
  · intro h
    rw [hto, hunfinished] at h
    cases h

theorem Moved.attended_write (vehicle' : FleetVehicle) {n : ℕ} {target : MaintenanceStatus}
    {st : VehicleOperationalStatus} (hm : s.missions.find order.taskId = some mission)
    (hdelivered : mission.status = .delivered) (ho : s.orders.find order.taskId = some order)
    (hopen : order.status.unfinished = true) (htarget : expected .delivered target = some (some st))
    (hv : s.vehicles.find order.vehicleId = some vehicle) (hid : vehicle'.vehicleId = vehicle.vehicleId)
    (hversion : vehicle'.version = vehicle.version) (hstatus : vehicle'.status = st)
    (hservice : vehicle.status ≠ .outOfService) :
    s.Moved ((s.recordMaintenance order target n).writeVehicle vehicle') mission mission order
        (advancedOrder order target n) ∧
      s.Evolves ((s.recordMaintenance order target n).writeVehicle vehicle') := by
  have hkey : vehicle'.vehicleId = order.vehicleId := hid.trans (Table.find_key hv)
  have hrow : (s.recordMaintenance order target n).vehicles.find vehicle'.vehicleId =
      some vehicle := by
    rw [hkey]
    exact hv
  have hraised : { vehicle' with version := vehicle'.version + 1 }.status = st := hstatus
  refine ⟨.attended hm hdelivered ho hopen htarget rfl ?_ ?_ hraised, ?_⟩
  · intro id hne
    rw [find_writeVehicle hrow, if_neg fun h => hne (h.trans hkey)]
    rfl
  · rw [find_writeVehicle hrow, if_pos hkey.symm]
  · exact Evolves.trans (b := s.recordMaintenance order target n) (.of_eq rfl)
      (.write hrow hversion fun h => absurd h hservice)

theorem InStep.parks (hdue : s.dueOrder now locked = some order)
    (ho : s.orders.find order.taskId = some order) (hopen : order.status.unfinished = true)
    (hm : s.missions.find order.taskId = some mission) (hdelivered : mission.status = .delivered)
    (hsame : mission.vehicleId = order.vehicleId) (hv : s.vehicles.find order.vehicleId = some vehicle)
    (hexpected : expected .delivered order.status = some (some vehicle.status))
    (hhand : order.status = .qaPending ∧ order.manualInspectionRequired = true ∧
      order.inspectionResult = none) (commits : Bool) :
    s.Advances (s.advanceOneDueMaintenance now locked commits) commits mission mission order
      { order with nextTransitionAt := none } := by
  let parked : MaintenanceOrder := { order with nextTransitionAt := none }
  let waiting : Store := { s with orders := s.orders.replace parked }
  have hrow : s.orders.find parked.taskId = some order := ho
  have horders : ∀ t, waiting.orders.find t =
      if t = order.taskId then some parked else s.orders.find t := Table.find_replace_of hrow
  have hmoved : s.Moved waiting mission mission order parked := by
    refine .serviced hm ho hopen hdelivered rfl rfl horders ⟨rfl, rfl, rfl, rfl⟩ (fun _ _ => rfl) hv
      ⟨_, hexpected, fun status h => Option.some.inj h⟩ (fun _ => rfl) (fun _ _ => rfl) ?_
    intro h
    have hdone : order.status.unfinished = false := h
    rw [hopen] at hdone
    cases hdone
  have hm' : waiting.missions.find order.taskId = some mission := hm
  have ho' : waiting.orders.find order.taskId = some parked := by rw [horders, if_pos rfl]
  have hv' : waiting.vehicles.find mission.vehicleId = some vehicle := by
    rw [hsame]
    exact hv
  obtain ⟨snapshot, hcommit⟩ := commitOrder_eq hm' ho' hv' commits
  refine ⟨waiting, snapshot, hmoved, .of_eq rfl, ?_⟩
  unfold advanceOneDueMaintenance
  simp only [hdue, if_pos hhand]
  refine (congrArg (fun x => x >>= _) hcommit).trans ?_
  cases commits <;> rfl

/-- A maintenance that is due moves its case on, and completes none that wants an inspection. -/
theorem advanceOneDueMaintenance_spec (hs : s.InStep) (now : ℕ) (locked : List String) (commits : Bool) :
    s.advanceOneDueMaintenance now locked commits = .ok (none, s) ∨
      ∃ mission order order', (order'.status = .completed → order.manualInspectionRequired = false) ∧
        order'.status ≠ .failed ∧
        s.Advances (s.advanceOneDueMaintenance now locked commits) commits mission mission order
          order' := by
  cases hdue : s.dueOrder now locked with
  | none =>
    left
    unfold advanceOneDueMaintenance
    rw [hdue]
  | some order =>
    right
    obtain ⟨ho, hactive⟩ := dueOrder_some hdue
    have hopen : order.status.unfinished = true := by
      rcases hactive with h | h | h | h <;> rw [h] <;> rfl
    obtain ⟨mission, vehicle, hm, hdelivered, hsame, hv, hexpected⟩ := hs.stationed ho hopen
      (by rcases hactive with h | h | h | h <;> rw [h] <;> decide)
    have hservice : vehicle.status ≠ .outOfService := by
      intro h
      have hunder := expected_underCase hexpected
      rw [h] at hunder
      cases hunder
    by_cases hhand : order.status = .qaPending ∧ order.manualInspectionRequired = true ∧
        order.inspectionResult = none
    · refine ⟨mission, order, { order with nextTransitionAt := none }, ?_, ?_,
        InStep.parks hdue ho hopen hm hdelivered hsame hv hexpected hhand commits⟩
      · intro h
        have hstatus : order.status = .completed := h
        rw [hhand.1] at hstatus
        cases hstatus
      · intro h
        have hstatus : order.status = .failed := h
        rw [hhand.1] at hstatus
        cases hstatus
    · have hstatus : ∀ st, expected .delivered order.status = some (some st) →
          vehicle.status = st := by
        intro st hst
        rw [hexpected] at hst
        exact Option.some.inj (Option.some.inj hst)
      rcases hactive with h | h | h | h
      · have hmoved : s.Moved (s.recordMaintenance order .diagnosing now) mission mission order
            (advancedOrder order .diagnosing now) :=
          .attended hm hdelivered ho hopen rfl rfl (fun _ _ => rfl) hv (hstatus _ (by rw [h]; rfl))
        refine ⟨mission, order, advancedOrder order .diagnosing now, ?_, ?_, hmoved.advances
          (.of_eq rfl) hdue hhand (by rw [h]; rfl) (by rw [h]; decide) hsame hv rfl commits⟩
        · intro hdone
          cases hdone
        · intro hdone
          cases hdone
      · have hfits : expected .delivered .repairing = some (some .maintenance) := rfl
        obtain ⟨hmoved, hevolves⟩ := Moved.attended_write { vehicle with
            availableAfter := (advancedOrder order .repairing now).availableAfter } (n := now) hm
          hdelivered ho hopen hfits hv rfl rfl (hstatus _ (by rw [h]; rfl)) hservice
        refine ⟨mission, order, advancedOrder order .repairing now, ?_, ?_, hmoved.advances
          hevolves hdue hhand (by rw [h]; rfl) (by rw [h]; decide) hsame hv rfl commits⟩
        · intro hdone
          cases hdone
        · intro hdone
          cases hdone
      · let assured : FleetVehicle := { vehicle with
          status := .qaPending, statusReason := some "维修完成，进入安全质检"
          statusChangedAt := some now }
        have htransition : vehicle.transition .qaPending "维修完成，进入安全质检" now = .ok assured :=
          FleetVehicle.transition_ok.mpr ⟨by rw [hstatus .maintenance (by rw [h]; rfl)]; decide, rfl⟩
        have hfits : expected .delivered .qaPending = some (some .qaPending) := rfl
        obtain ⟨hmoved, hevolves⟩ := Moved.attended_write assured (n := now) hm hdelivered ho hopen
          hfits hv rfl rfl rfl hservice
        refine ⟨mission, order, advancedOrder order .qaPending now, ?_, ?_, hmoved.advances
          hevolves hdue hhand (by rw [h]; rfl) (by rw [h]; decide) hsame hv
          (bind_eq_ok.mpr ⟨_, htransition, rfl⟩) commits⟩
        · intro hdone
          cases hdone
        · intro hdone
          cases hdone
      · obtain ⟨effected, vehicle', hresult, hmoved, hevolves, -⟩ :=
          Moved.finished (s.recordMaintenance order .completed now) hm hdelivered ho h hv
            (hstatus _ (by rw [h]; rfl)) rfl (find_recordMaintenance ho) ⟨rfl, rfl, rfl, rfl⟩ (.inl rfl)
            true now
        refine ⟨mission, order, advancedOrder order .completed now, ?_, ?_, hmoved.advances
          hevolves hdue hhand (by rw [h]; rfl) (by rw [h]; decide) hsame hv hresult commits⟩
        · intro _
          -- an unfinished order has not been inspected, so it need not be
          by_contra hmanual
          rw [Bool.not_eq_false] at hmanual
          exact hhand ⟨h, hmanual, (hs.bay _ order ho hopen).1⟩
        · intro hdone
          cases hdone

end Maintenance

end Store

end CountyFlow.Operations
