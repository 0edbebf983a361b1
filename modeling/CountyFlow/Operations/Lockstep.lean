import CountyFlow.Operations.Effects

/-!
# The life of a vehicle in lockstep

Three state machines on four tables advance in separate transactions, driven by timers, people and the
dispatcher, and each transition is checked only against its own table.
-/

namespace CountyFlow.Operations

open CountyFlow.Lib Function
open CountyFlow.Dispatch (VehicleOperationalStatus)

variable {s s' : Store} {commits : Bool}

namespace Store

theorem retryRescue_ne_ok (hs : s.InStep) {no : String} {now : ℕ}
    {r : OperationCaseSnapshot × Store} : s.retryRescue no now commits ≠ .ok r := by
  intro h
  unfold retryRescue at h
  split at h
  · cases h
  · rename_i mission hfind
    split at h
    · cases h
    · rename_i hfailed
      rw [not_not] at hfailed
      have hm : s.missions.find mission.taskId = some mission :=
        Table.find_of_mem (List.mem_of_find?_eq_some hfind)
      obtain ⟨order, ho⟩ := hs.order hm
      obtain ⟨-, want, hwant, -⟩ := hs.fits _ mission order hm ho
      rw [hfailed] at hwant
      cases order.status <;> cases hwant

theorem updateReplacementRoute_ok {taskId : String} {edgeIds : List String} {snapshot : OperationCaseSnapshot}
    (h : s.updateReplacementRoute taskId edgeIds commits = .ok (snapshot, s')) :
    s' = { s with outbox := s'.outbox } := by
  unfold updateReplacementRoute at h
  split at h
  · rw [commit_ok h]
  · cases h

/-- The five tables are the same. -/
structure Same (s s' : Store) : Prop where
  vehicles : s'.vehicles = s.vehicles
  units : s'.units = s.units
  bays : s'.bays = s.bays
  missions : s'.missions = s.missions
  orders : s'.orders = s.orders

end Store

variable {mission mission' : RescueMission} {order order' : MaintenanceOrder}
  {result : Except OperationError (Option OperationCaseSnapshot × Store)} {a : Action}

namespace System

/-! ### What an action does -/

def isTimer : Action → Bool
  | .advanceOneDueRescue _ _ _ | .advanceOneDueMaintenance _ _ _ => true
  | _ => false

/-- **What an action can do to the store.** -/
inductive Change (s : Store) : Action → Store → Prop
  | quiet {a : Action} {s' : Store} : s.Same s' → Change s a s'
  | created {request : BreakdownCaseRequest} {locked : List String} {commits : Bool} {s' : Store}
      {bay : MaintenanceBay} : s.Created s' request bay → s.Evolves s' →
      Change s (.createBreakdownCase request locked commits) s'
  | timed {a : Action} {s' : Store} {mission mission' : RescueMission}
      {order order' : MaintenanceOrder} : isTimer a = true →
      s.Moved s' mission mission' order order' → s.Evolves s' →
      (order'.status = .completed → order.manualInspectionRequired = false) →
      order'.status ≠ .failed → Change s a s'
  | inspected {passed commits : Bool} {decidedAt : ℕ} {decidedBy : String} {s' : Store}
      {mission : RescueMission} {order order' : MaintenanceOrder} {vehicle' : FleetVehicle} :
      order.status = .qaPending → order'.status = (if passed then .completed else .failed) →
      s.Moved s' mission mission order order' → s.Evolves s' →
      s'.vehicles.find order.vehicleId = some vehicle' →
      vehicle'.status = (if passed then .available else .outOfService) →
      Change s (.recordInspection order.orderNo passed decidedAt decidedBy commits) s'
  | reserved {p : ℕ} {vehicle : FleetVehicle} : s.vehicles.find vehicle.vehicleId = some vehicle →
      vehicle.status = .available →
      Change s (.reserve p) (s.writeVehicle { vehicle with status := .reserved })

/-- Everything is in step, and what a dispatcher has loaded was available in the version it has. -/
structure Sound (s : System) : Prop where
  inStep : s.store.InStep
  loaded : ∀ p loaded, s.loads p = some loaded → loaded.status = .available ∧
    ∃ vehicle, s.store.vehicles.find loaded.vehicleId = some vehicle ∧
      (vehicle = loaded ∨ loaded.version < vehicle.version)

theorem advances_ok {snapshot : Option OperationCaseSnapshot}
    (h : s.Advances result commits mission mission' order order') (hresult : result = .ok (snapshot, s')) :
    s.Moved s' mission mission' order order' ∧ s.Evolves s' := by
  obtain ⟨s'', snapshot', hmoved, hevolves, heq⟩ := h
  rw [hresult] at heq
  cases commits with
  | false => cases heq
  | true =>
    obtain rfl : s' = s'' := (Prod.mk.inj (Except.ok.inj heq)).2
    exact ⟨hmoved, hevolves⟩

variable {s s' : System}

/-- What an operation does to the store is one of these changes. -/
theorem step_change (hs : s.Sound) (h : s.step a = some s') : Change s.store a s'.store := by
  cases a with
  | createBreakdownCase request locked commits =>
    obtain ⟨⟨snapshot, store⟩, hok, rfl⟩ := Option.map_eq_some_iff.mp h
    rw [toOption_eq_some] at hok
    rcases Store.createBreakdownCase_ok hok with hsame | ⟨⟨bay, hcreated⟩, hevolves, -⟩
    · have hstore : store = s.store := hsame
      exact .quiet ⟨by rw [hstore], by rw [hstore], by rw [hstore], by rw [hstore], by rw [hstore]⟩
    · exact .created hcreated hevolves
  | advanceOneDueRescue now locked commits =>
    obtain ⟨⟨snapshot, store⟩, hok, rfl⟩ := Option.map_eq_some_iff.mp h
    rw [toOption_eq_some] at hok
    rcases Store.advanceOneDueRescue_spec hs.inStep now locked commits with hnone |
      ⟨mission, mission', order, order', hund, horder, hadvances⟩
    · rw [hok] at hnone
      obtain rfl : store = s.store := (Prod.mk.inj (Except.ok.inj hnone)).2
      exact .quiet ⟨rfl, rfl, rfl, rfl, rfl⟩
    · obtain ⟨hmoved, hevolves⟩ := advances_ok hadvances hok
      have hopen : order'.status ≠ .completed ∧ order'.status ≠ .failed := by
        rcases horder with rfl | hwaits
        · have hunfinished := hmoved.unfinished
          exact of_decide_eq_true hunfinished
        · rw [hwaits]
          decide
      exact .timed rfl hmoved hevolves (fun hdone => absurd hdone hopen.1) hopen.2
  | advanceOneDueMaintenance now locked commits =>
    obtain ⟨⟨snapshot, store⟩, hok, rfl⟩ := Option.map_eq_some_iff.mp h
    rw [toOption_eq_some] at hok
    rcases Store.advanceOneDueMaintenance_spec hs.inStep now locked commits with hnone |
      ⟨mission, order, order', hcompleted, hfailed, hadvances⟩
    · rw [hok] at hnone
      obtain rfl : store = s.store := (Prod.mk.inj (Except.ok.inj hnone)).2
      exact .quiet ⟨rfl, rfl, rfl, rfl, rfl⟩
    · obtain ⟨hmoved, hevolves⟩ := advances_ok hadvances hok
      exact .timed rfl hmoved hevolves hcompleted hfailed
  | retryRescue no now commits =>
    obtain ⟨r, hok, rfl⟩ := Option.map_eq_some_iff.mp h
    rw [toOption_eq_some] at hok
    exact absurd hok (Store.retryRescue_ne_ok hs.inStep)
  | recordInspection no passed decidedAt decidedBy commits =>
    obtain ⟨⟨snapshot, store⟩, hok, rfl⟩ := Option.map_eq_some_iff.mp h
    rw [toOption_eq_some] at hok
    obtain ⟨mission, order, order', vehicle', rfl, hqa, hdone, hmoved, hevolves, hfind, hstatus⟩ :=
      Store.recordInspection_ok hs.inStep hok
    exact .inspected hqa hdone hmoved hevolves hfind hstatus
  | updateReplacementRoute taskId edgeIds commits =>
    obtain ⟨⟨snapshot, store⟩, hok, rfl⟩ := Option.map_eq_some_iff.mp h
    rw [toOption_eq_some] at hok
    have hstore := Store.updateReplacementRoute_ok hok
    exact .quiet ⟨by rw [hstore], by rw [hstore], by rw [hstore], by rw [hstore], by rw [hstore]⟩
  | load p vehicleId =>
    simp only [step] at h
    split at h
    · cases h
    · split at h
      · cases h
        exact .quiet ⟨rfl, rfl, rfl, rfl, rfl⟩
      · cases h
  | reserve p =>
    simp only [step, reserve] at h
    split at h
    · cases h
    · rename_i loaded hloaded
      split at h
      · cases h
        exact .quiet ⟨rfl, rfl, rfl, rfl, rfl⟩
      · rename_i vehicle hfind
        split at h
        · rename_i hversion
          cases h
          obtain ⟨havailable, vehicle', hfind', hlater⟩ := hs.loaded p loaded hloaded
          rw [hfind, Option.some.injEq] at hfind'
          subst hfind'
          have hkey : vehicle.vehicleId = loaded.vehicleId := Table.find_key hfind
          rcases hlater with rfl | hlt
          · exact .reserved hfind havailable
          · omega
        · cases h
          exact .quiet ⟨rfl, rfl, rfl, rfl, rfl⟩

/-! ### Runs -/

theorem Change.evolves {s s' : Store} {a : Action} (h : Change s a s') : s.Evolves s' := by
  cases h with
  | quiet hsame => exact .of_eq hsame.vehicles
  | created _ hevolves => exact hevolves
  | timed _ _ hevolves => exact hevolves
  | inspected _ _ _ hevolves => exact hevolves
  | @reserved p vehicle hfind havailable =>
    have hrow : s.vehicles.find { vehicle with status := .reserved }.vehicleId = some vehicle := hfind
    refine .write hrow rfl fun hout => ?_
    rw [havailable] at hout
    cases hout

theorem Change.inStep {s s' : Store} {a : Action} (h : Change s a s') (hs : s.InStep) : s'.InStep := by
  cases h with
  | quiet hsame =>
    refine hs.of_vehicles hsame.missions hsame.orders hsame.units hsame.bays ?_
    intro id vehicle hfind _
    exact ⟨vehicle, by rw [hsame.vehicles]; exact hfind, rfl⟩
  | created hcreated _ => exact hs.created hcreated
  | timed _ hmoved _ => exact hs.moved hmoved
  | inspected _ _ hmoved _ => exact hs.moved hmoved
  | @reserved p vehicle hfind havailable =>
    refine hs.of_vehicles rfl rfl rfl rfl ?_
    intro id other hother hunder
    have hrow : s.vehicles.find { vehicle with status := .reserved }.vehicleId = some vehicle := hfind
    refine ⟨other, ?_, rfl⟩
    rw [Store.find_writeVehicle hrow, if_neg]
    · exact hother
    · rintro rfl
      have hsame : vehicle = other := Option.some.inj (hfind.symm.trans hother)
      rw [← hsame, havailable] at hunder
      cases hunder

/-- A loaded vehicle was loaded before, or is loaded now, as it is stored. -/
theorem step_loads (h : s.step a = some s') {p : ℕ} {loaded : FleetVehicle} (hp : s'.loads p = some loaded) :
    s.loads p = some loaded ∨ (s'.store = s.store ∧ loaded.status = .available ∧
      s.store.vehicles.find loaded.vehicleId = some loaded) := by
  have hsub : ∀ {loads : ℕ → Option FleetVehicle} {q : ℕ},
      update loads q none p = some loaded → loads p = some loaded := by
    intro loads q hupdate
    by_cases hq : p = q
    · rw [hq, update_self] at hupdate
      cases hupdate
    · rwa [update_of_ne hq] at hupdate
  cases a with
  | load q vehicleId =>
    simp only [step] at h
    split at h
    · cases h
    · rename_i vehicle hfind
      split at h
      · rename_i havailable
        cases h
        by_cases hq : p = q
        · subst hq
          have hloaded : update s.loads p (some vehicle) p = some loaded := hp
          rw [update_self, Option.some.injEq] at hloaded
          subst hloaded
          exact .inr ⟨rfl, havailable, by rw [Table.find_key hfind]; exact hfind⟩
        · left
          have hkept : update s.loads q (some vehicle) p = some loaded := hp
          rwa [update_of_ne hq] at hkept
      · cases h
  | reserve q =>
    left
    simp only [step, reserve] at h
    split at h
    · cases h
    · split at h
      · cases h
        exact hsub hp
      · split at h
        · cases h
          exact hsub hp
        · cases h
          exact hsub hp
  | _ =>
    obtain ⟨r, -, rfl⟩ := Option.map_eq_some_iff.mp h
    exact .inl hp

theorem step_sound {s s' : System} {a : Action} (hs : s.Sound) (h : s.step a = some s') : s'.Sound := by
  have hchange := step_change hs h
  refine ⟨hchange.inStep hs.inStep, fun p loaded hp => ?_⟩
  rcases step_loads h hp with hbefore | ⟨hstore, havailable, hfind⟩
  · obtain ⟨havailable, vehicle, hfind, hlater⟩ := hs.loaded p loaded hbefore
    refine ⟨havailable, ?_⟩
    obtain ⟨vehicle', hfind', hevolved⟩ := hchange.evolves _ vehicle hfind
    refine ⟨vehicle', hfind', ?_⟩
    rcases hevolved with rfl | ⟨hlt, -⟩
    · exact hlater
    · right
      rcases hlater with rfl | hlt'
      · exact hlt
      · exact hlt'.trans hlt
  · refine ⟨havailable, loaded, ?_, .inl rfl⟩
    rw [hstore]
    exact hfind

theorem sound_of_initial (h : s.Initial) : s.Sound := by
  have hmissions : ∀ t, s.store.missions.find t = none := by
    intro t
    unfold Table.find
    rw [h.missions]
    rfl
  have horders : ∀ t, s.store.orders.find t = none := by
    intro t
    unfold Table.find
    rw [h.orders]
    rfl
  refine ⟨⟨?_, ?_, ?_, ?_, ?_, ?_, ?_, ?_⟩, fun p loaded hp => ?_⟩
  · intro t
    rw [hmissions, horders]
    rfl
  · intro t mission order hm
    rw [hmissions] at hm
    cases hm
  · intro t mission hm
    rw [hmissions] at hm
    cases hm
  · intro t t' mission mission' hm
    rw [hmissions] at hm
    cases hm
  · intro t t' order order' ho
    rw [horders] at ho
    cases ho
  · intro t order ho
    rw [horders] at ho
    cases ho
  · intro code bay no hbay hno
    rw [h.bays bay (Table.find_mem hbay)] at hno
    cases hno
  · intro t t' order order' ho
    rw [horders] at ho
    cases ho
  · rw [h.loads] at hp
    cases hp

theorem sound_of_run {s₀ : System} {run : List Action} (h₀ : s₀.Initial)
    (hrun : exec step s₀ run = some s) : s.Sound :=
  exec_preserves (fun _ _ _ hs h => step_sound hs h) hrun (sound_of_initial h₀)

end System

/-! ### Lockstep -/

namespace Store

/-- **The rows of every case are in lockstep.** -/
structure Lockstep (s : Store) : Prop where
  /-- A case is a mission and an order about one vehicle. -/
  case : ∀ mission ∈ s.missions.rows,
    ∃ order, s.orders.find mission.taskId = some order ∧ order.vehicleId = mission.vehicleId
  /-- A mission under way has its vehicle waiting, its order scheduled and its unit out. -/
  rescue : ∀ mission ∈ s.missions.rows, mission.status = .dispatched ∨ mission.status = .arrived →
    ∃ order vehicle unit, s.orders.find mission.taskId = some order ∧ order.status = .scheduled ∧
      s.vehicles.find mission.vehicleId = some vehicle ∧ vehicle.status = .waitingRescue ∧
      s.units.find mission.rescueUnitId = some unit ∧ unit.status = .dispatched
  /-- A loaded mission has its vehicle in rescue and its order scheduled. -/
  tow : ∀ mission ∈ s.missions.rows, mission.status = .loaded →
    ∃ order vehicle, s.orders.find mission.taskId = some order ∧ order.status = .scheduled ∧
      s.vehicles.find mission.vehicleId = some vehicle ∧ vehicle.status = .inRescue
  /-- A delivered mission whose order is worked on has its vehicle in maintenance. -/
  repair : ∀ mission ∈ s.missions.rows, ∀ order, mission.status = .delivered →
    s.orders.find mission.taskId = some order →
    order.status = .waitingBay ∨ order.status = .diagnosing ∨ order.status = .repairing →
    ∃ vehicle, s.vehicles.find mission.vehicleId = some vehicle ∧ vehicle.status = .maintenance
  /-- A delivered mission whose order is in quality assurance has its vehicle there. -/
  assurance : ∀ mission ∈ s.missions.rows, ∀ order, mission.status = .delivered →
    s.orders.find mission.taskId = some order → order.status = .qaPending →
    ∃ vehicle, s.vehicles.find mission.vehicleId = some vehicle ∧ vehicle.status = .qaPending
  /-- An unfinished order holds exactly the bay that names it. -/
  bay : ∀ order ∈ s.orders.rows, order.status.unfinished = true →
    ∃ bay ∈ s.bays.rows, order.bayCode = some bay.bayCode ∧
      ∀ bay' ∈ s.bays.rows, bay'.currentOrderNo = some order.orderNo ↔ bay' = bay
  bayAlone : ∀ order ∈ s.orders.rows, ∀ order' ∈ s.orders.rows, order.status.unfinished = true →
    order'.status.unfinished = true → order.bayCode = order'.bayCode → order = order'
  unitAlone : ∀ mission ∈ s.missions.rows, ∀ mission' ∈ s.missions.rows,
    mission.status.undelivered = true → mission'.status.undelivered = true →
    mission.rescueUnitId = mission'.rescueUnitId → mission = mission'
  vehicleAlone : ∀ order ∈ s.orders.rows, ∀ order' ∈ s.orders.rows,
    order.status.unfinished = true → order'.status.unfinished = true →
    order.vehicleId = order'.vehicleId → order = order'

theorem eq_of_key {ρ : Type} {key : ρ → String} {t : Table ρ key} {r r' : ρ} (hr : r ∈ t.rows)
    (hr' : r' ∈ t.rows) (h : key r = key r') : r = r' := by
  have hfind := Table.find_of_mem hr
  rw [h, Table.find_of_mem hr'] at hfind
  exact (Option.some.inj hfind).symm

theorem InStep.vehicleOf (hs : s.InStep) {status : VehicleOperationalStatus}
    (hmem : mission ∈ s.missions.rows) (ho : s.orders.find mission.taskId = some order)
    (hexpected : expected mission.status order.status = some (some status)) :
    ∃ vehicle, s.vehicles.find mission.vehicleId = some vehicle ∧ vehicle.status = status := by
  obtain ⟨hsame, want, hwant, hvehicle⟩ :=
    hs.fits _ mission order (Table.find_of_mem hmem) ho
  rw [hexpected, Option.some.injEq] at hwant
  obtain ⟨vehicle, hfind, hstatus⟩ := hvehicle status hwant.symm
  exact ⟨vehicle, by rw [hsame]; exact hfind, hstatus⟩

/-- In step, the rows of every case agree. -/
theorem InStep.rows_agree (hs : s.InStep) : s.Lockstep := by
  have hscheduled : ∀ mission ∈ s.missions.rows, mission.status.undelivered = true →
      ∃ order, s.orders.find mission.taskId = some order ∧ order.status = .scheduled := by
    intro mission hmem hund
    obtain ⟨order, -, ho, hstatus, -⟩ := hs.towed (Table.find_of_mem hmem) hund
    exact ⟨order, ho, hstatus⟩
  refine ⟨?_, ?_, ?_, ?_, ?_, ?_, ?_, ?_, ?_⟩
  · intro mission hmem
    obtain ⟨order, ho⟩ := hs.order (Table.find_of_mem hmem)
    exact ⟨order, ho, (hs.fits _ mission order (Table.find_of_mem hmem) ho).1.symm⟩
  · intro mission hmem hstatus
    have hund : mission.status.undelivered = true := by
      rcases hstatus with h | h <;> rw [h] <;> rfl
    obtain ⟨order, ho, horder⟩ := hscheduled mission hmem hund
    have hexpected : expected mission.status order.status = some (some .waitingRescue) := by
      rcases hstatus with h | h <;> rw [h, horder] <;> rfl
    obtain ⟨vehicle, hv, hwaits⟩ := hs.vehicleOf hmem ho hexpected
    obtain ⟨unit, hunit, hout⟩ := hs.unit _ mission (Table.find_of_mem hmem) hund
    exact ⟨order, vehicle, unit, ho, horder, hv, hwaits, hunit, hout⟩
  · intro mission hmem hstatus
    obtain ⟨order, ho, horder⟩ := hscheduled mission hmem (by rw [hstatus]; rfl)
    have hexpected : expected mission.status order.status = some (some .inRescue) := by
      rw [hstatus, horder]
      rfl
    obtain ⟨vehicle, hv, htowed⟩ := hs.vehicleOf hmem ho hexpected
    exact ⟨order, vehicle, ho, horder, hv, htowed⟩
  · intro mission hmem order hstatus ho horder
    refine hs.vehicleOf hmem ho ?_
    rcases horder with h | h | h <;> rw [hstatus, h] <;> rfl
  · intro mission hmem order hstatus ho horder
    refine hs.vehicleOf hmem ho ?_
    rw [hstatus, horder]
    rfl
  · intro order hmem hopen
    obtain ⟨-, code, bay, hcode, hbay, -, hno⟩ := hs.bay _ order (Table.find_of_mem hmem) hopen
    have hkey : bay.bayCode = code := Table.find_key hbay
    refine ⟨bay, Table.find_mem hbay, by rw [hkey]; exact hcode, fun bay' hmem' => ⟨fun hnames => ?_, ?_⟩⟩
    · -- the bay that names the order is the one the order holds
      obtain ⟨-, t, order', ho', hopen', hsame, hcode'⟩ :=
        hs.named _ bay' order.orderNo (Table.find_of_mem hmem') hnames
      obtain rfl := hs.orderNos t order.taskId order' order ho' (Table.find_of_mem hmem) hsame
      rw [Table.find_of_mem hmem, Option.some.injEq] at ho'
      rw [← ho', hcode, Option.some.injEq] at hcode'
      exact eq_of_key hmem' (Table.find_mem hbay) (by rw [hkey, hcode'])
    · rintro rfl
      exact hno
  · intro order hmem order' hmem' hopen hopen' hcode
    obtain ⟨-, code, bay, hbayCode, hbay, -, hno⟩ := hs.bay _ order (Table.find_of_mem hmem) hopen
    obtain ⟨-, code', bay', hbayCode', hbay', -, hno'⟩ :=
      hs.bay _ order' (Table.find_of_mem hmem') hopen'
    rw [hcode, hbayCode', Option.some.injEq] at hbayCode
    rw [← hbayCode, hbay', Option.some.injEq] at hbay
    rw [← hbay, hno', Option.some.injEq] at hno
    exact eq_of_key hmem hmem'
      (hs.orderNos _ _ order order' (Table.find_of_mem hmem) (Table.find_of_mem hmem') hno.symm)
  · intro mission hmem mission' hmem' hund hund' hunit
    exact eq_of_key hmem hmem' (hs.unitAlone _ _ mission mission' (Table.find_of_mem hmem)
      (Table.find_of_mem hmem') hund hund' hunit)
  · intro order hmem order' hmem' hopen hopen' hvehicle
    exact eq_of_key hmem hmem' (hs.vehicleAlone _ _ order order' (Table.find_of_mem hmem)
      (Table.find_of_mem hmem') hopen hopen' hvehicle)

theorem Advances.error {error : OperationError} (h : s.Advances result commits mission mission' order order')
    (hresult : result = .error error) : error = .databaseError := by
  obtain ⟨s', snapshot, -, -, heq⟩ := h
  rw [hresult] at heq
  cases commits with
  | false => exact Except.error.inj heq
  | true => cases heq

theorem InStep.timers (hs : s.InStep) (now : ℕ) (locked : List String) (commits : Bool)
    (error : OperationError) (h : s.advanceOneDueRescue now locked commits = .error error ∨
      s.advanceOneDueMaintenance now locked commits = .error error) : error = .databaseError := by
  rcases h with h | h
  · rcases advanceOneDueRescue_spec hs now locked commits with hnone | ⟨_, _, _, _, -, -, hadvances⟩
    · rw [h] at hnone
      cases hnone
    · exact hadvances.error h
  · rcases advanceOneDueMaintenance_spec hs now locked commits with hnone | ⟨_, _, _, -, -, hadvances⟩
    · rw [h] at hnone
      cases hnone
    · exact hadvances.error h

end Store

namespace System

/-- **Lockstep**: in every reachable state the rows of every case are in lockstep, and the timers never
meet an invalid transition. -/
theorem lockstep {s₀ s : System} {run : List Action} (h₀ : s₀.Initial) (hrun : exec step s₀ run = some s) :
    s.store.Lockstep ∧ ∀ now locked commits message,
      s.store.advanceOneDueRescue now locked commits ≠ .error (.invalidStateTransition message) ∧
      s.store.advanceOneDueMaintenance now locked commits ≠
        .error (.invalidStateTransition message) := by
  have hs := (sound_of_run h₀ hrun).inStep
  refine ⟨hs.rows_agree, fun now locked commits message => ⟨fun h => ?_, fun h => ?_⟩⟩
  · cases hs.timers now locked commits _ (.inl h)
  · cases hs.timers now locked commits _ (.inr h)

/-! ### A breakdown -/

/-- Two vehicles, the rescue unit and the bay of the seed, and no case. -/
def seeded : System where
  store :=
    { vehicles := ⟨[⟨"V-001", .inTransit, none, none, none, none, none, "N04", 1⟩,
        ⟨"V-002", .available, none, none, none, none, none, "N01", 1⟩], by simp⟩
      units := ⟨[⟨"RU-001", .available, "N15"⟩], List.nodup_singleton _⟩
      bays := ⟨[⟨"A-02", .available, none⟩], List.nodup_singleton _⟩
      missions := .empty
      orders := .empty
      outbox := [] }
  loads := fun _ => none

theorem seeded_initial : seeded.Initial :=
  ⟨rfl, rfl, by simp [seeded], fun _ => rfl⟩

/-- `V-001` has broken down, with a brake failure, and `V-002` takes over. -/
def brakeFailure : BreakdownCaseRequest where
  taskId := "TASK-0f3c7"
  vehicleId := "V-001"
  replacementVehicleId := some "V-002"
  rescueUnitId := "RU-001"
  incidentNodeId := "N04"
  stationNodeId := "N15"
  outboundEdgeIds := ["E09"]
  towEdgeIds := ["E09"]
  faultCode := "BRAKE_FAILURE"
  diagnosis := "制动系统故障，必须人工安全复核"
  repairMinutes := 120
  manualInspectionRequired := true
  occurredAt := 63800000000
  replacementEdgeIds := ["E01"]

/-- The case is opened and towed, and the order is worked on up to quality assurance. -/
def brakeRepair : List Action :=
  [.load 0 "V-002", .reserve 0, .createBreakdownCase brakeFailure [] true,
    .advanceOneDueRescue 63800000008 [] true, .advanceOneDueRescue 63800000014 [] true,
    .advanceOneDueRescue 63800000018 [] true, .advanceOneDueMaintenance 63800000019 [] true,
    .advanceOneDueMaintenance 63800000024 [] true, .advanceOneDueMaintenance 63800007224 [] true]

/-- The repaired vehicle is in quality assurance. -/
theorem lockstep_repaired : ∃ s, exec step seeded brakeRepair = some s ∧ s.store.Lockstep ∧
    (s.store.orders.rows.map fun order => (order.orderNo, order.status)) =
      [("WX-20220928-007", .qaPending)] := by
  have hrun : ((exec step seeded brakeRepair).map fun s =>
      s.store.orders.rows.map fun order => (order.orderNo, order.status)) =
      some [("WX-20220928-007", .qaPending)] := by decide +kernel
  obtain ⟨s, hs, horders⟩ := Option.map_eq_some_iff.mp hrun
  exact ⟨s, hs, (lockstep seeded_initial hs).1, horders⟩

end System

end CountyFlow.Operations
