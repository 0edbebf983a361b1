import CountyFlow.Operations.System

/-!
# Cases that are opened and move on

Every operation opens one case, moves one on, or leaves the cases alone; the two kinds of change are
said here as facts about the tables, whatever operation brings them about.
-/

namespace CountyFlow.Operations

open CountyFlow.Lib
open CountyFlow.Dispatch (VehicleOperationalStatus)

variable {t : String} {m : RescueMission} {o : MaintenanceOrder}

namespace Store

/-! ### A case moves on -/

/-- **One case moves on**: its rows are written, its unit is released when the mission is delivered, its
bay when the order is finished, and nothing else changes. -/
structure Moved (s s' : Store) (mission mission' : RescueMission) (order order' : MaintenanceOrder) :
    Prop where
  foundMission : s.missions.find mission.taskId = some mission
  foundOrder : s.orders.find mission.taskId = some order
  unfinished : order.status.unfinished = true
  missions : ∀ t, s'.missions.find t =
    if t = mission.taskId then some mission' else s.missions.find t
  orders : ∀ t, s'.orders.find t = if t = mission.taskId then some order' else s.orders.find t
  missionKept : mission'.vehicleId = mission.vehicleId ∧ mission'.rescueUnitId = mission.rescueUnitId
  orderKept : order'.vehicleId = order.vehicleId ∧ order'.bayCode = order.bayCode ∧
    order'.orderNo = order.orderNo ∧
    order'.manualInspectionRequired = order.manualInspectionRequired
  others : ∀ id, id ≠ order.vehicleId → s'.vehicles.find id = s.vehicles.find id
  fits : ∃ vehicle want, s'.vehicles.find order.vehicleId = some vehicle ∧
    expected mission'.status order'.status = some want ∧
    ∀ status, want = some status → vehicle.status = status
  further : mission'.status.undelivered = true → mission.status.undelivered = true
  units : ∀ id, id ≠ mission.rescueUnitId ∨ mission'.status.undelivered = mission.status.undelivered →
    s'.units.find id = s.units.find id
  uninspected : order'.status.unfinished = true → order'.inspectionResult = order.inspectionResult
  bays : ∀ code, order.bayCode ≠ some code ∨ order'.status.unfinished = true →
    s'.bays.find code = s.bays.find code
  freed : order'.status.unfinished = false → ∀ code bay, order.bayCode = some code →
    s'.bays.find code = some bay → bay.currentOrderNo = none

section Moved

variable {s s' : Store} {mission mission' : RescueMission} {order order' : MaintenanceOrder}

theorem Moved.before_mission (h : s.Moved s' mission mission' order order')
    (hm : s'.missions.find t = some m) :
    ∃ m₀, s.missions.find t = some m₀ ∧ m.rescueUnitId = m₀.rescueUnitId ∧
      (m.status.undelivered = true → m₀.status.undelivered = true) := by
  rw [h.missions] at hm
  split at hm
  · rename_i ht
    cases hm
    exact ⟨mission, ht ▸ h.foundMission, h.missionKept.2, h.further⟩
  · exact ⟨m, hm, rfl, fun hu => hu⟩

theorem Moved.before_order (h : s.Moved s' mission mission' order order') (ho : s'.orders.find t = some o) :
    ∃ o₀, s.orders.find t = some o₀ ∧ o.vehicleId = o₀.vehicleId ∧ o.orderNo = o₀.orderNo ∧
      (o.status.unfinished = true → o₀.status.unfinished = true) := by
  rw [h.orders] at ho
  split at ho
  · rename_i ht
    cases ho
    exact ⟨order, ht ▸ h.foundOrder, h.orderKept.1, h.orderKept.2.2.1, fun _ => h.unfinished⟩
  · exact ⟨o, ho, rfl, rfl, fun hu => hu⟩

/-- A case that moves on leaves everything in step. -/
theorem InStep.moved (hs : s.InStep) (h : s.Moved s' mission mission' order order') : s'.InStep := by
  refine ⟨?_, ?_, ?_, ?_, ?_, ?_, ?_, ?_⟩
  · intro t
    rw [h.missions, h.orders]
    split
    · rfl
    · exact hs.paired t
  · intro t m o hm ho
    rw [h.missions] at hm
    rw [h.orders] at ho
    split at hm
    · rename_i ht
      rw [if_pos ht] at ho
      cases hm
      cases ho
      obtain ⟨hsame, -⟩ := hs.fits _ mission order h.foundMission h.foundOrder
      refine ⟨by rw [h.missionKept.1, h.orderKept.1, hsame], ?_⟩
      obtain ⟨vehicle, want, hfind, hwant, hstatus⟩ := h.fits
      refine ⟨want, hwant, fun status hw => ⟨vehicle, ?_, hstatus status hw⟩⟩
      rw [h.orderKept.1]
      exact hfind
    · rename_i ht
      rw [if_neg ht] at ho
      obtain ⟨hsame, want, hwant, hvehicle⟩ := hs.fits t m o hm ho
      refine ⟨hsame, want, hwant, fun status hw => ?_⟩
      obtain ⟨vehicle, hfind, hstatus⟩ := hvehicle status hw
      refine ⟨vehicle, ?_, hstatus⟩
      -- the vehicle of the case that moves is not the one of another unfinished case
      rw [h.others _ fun heq => ht (hs.vehicleAlone t mission.taskId o order ho h.foundOrder
        (by rw [expected_unfinished hwant, hw]; rfl) h.unfinished heq)]
      exact hfind
  · intro t m hm hu
    obtain ⟨m₀, hm₀, hid, hund⟩ := h.before_mission hm
    obtain ⟨unit, hunit, hout⟩ := hs.unit t m₀ hm₀ (hund hu)
    refine ⟨unit, ?_, hout⟩
    rw [hid, h.units]
    · exact hunit
    · by_cases hsame : mission'.status.undelivered = mission.status.undelivered
      · exact .inr hsame
      · left
        intro heq
        have hopen : mission.status.undelivered = true := by
          by_contra hdone
          rw [Bool.not_eq_true] at hdone
          refine hsame ?_
          rw [hdone]
          by_contra hfurther
          rw [Bool.not_eq_false] at hfurther
          rw [h.further hfurther] at hdone
          cases hdone
        obtain rfl := hs.unitAlone t mission.taskId m₀ mission hm₀ h.foundMission (hund hu) hopen heq
        rw [h.missions, if_pos rfl] at hm
        cases hm
        exact hsame (hu.trans hopen.symm)
  · intro t t' m m' hm hm' hu hu' hid
    obtain ⟨m₀, hm₀, hid₀, hund⟩ := h.before_mission hm
    obtain ⟨m₁, hm₁, hid₁, hund'⟩ := h.before_mission hm'
    exact hs.unitAlone t t' m₀ m₁ hm₀ hm₁ (hund hu) (hund' hu') (by rw [← hid₀, hid, hid₁])
  · intro t t' o o' ho ho' hu hu' hid
    obtain ⟨o₀, ho₀, hid₀, -, hopen⟩ := h.before_order ho
    obtain ⟨o₁, ho₁, hid₁, -, hopen'⟩ := h.before_order ho'
    exact hs.vehicleAlone t t' o₀ o₁ ho₀ ho₁ (hopen hu) (hopen' hu') (by rw [← hid₀, hid, hid₁])
  · intro t o ho hu
    rw [h.orders] at ho
    split at ho
    · rename_i ht
      cases ho
      obtain ⟨hnone, code, bay, hcode, hbay, hrest⟩ := hs.bay _ order h.foundOrder h.unfinished
      refine ⟨(h.uninspected hu).trans hnone, code, bay, h.orderKept.2.1.trans hcode, ?_, ?_⟩
      · rw [h.bays code (.inr hu)]
        exact hbay
      · rw [h.orderKept.2.2.1]
        exact hrest
    · rename_i ht
      obtain ⟨hnone, code, bay, hcode, hbay, hreserved, hno⟩ := hs.bay t o ho hu
      refine ⟨hnone, code, bay, hcode, ?_, hreserved, hno⟩
      rw [h.bays]
      · exact hbay
      · -- the bay of another unfinished order names that order
        left
        intro hsame
        obtain ⟨-, code', bay', hcode', hbay', -, hno'⟩ := hs.bay _ order h.foundOrder h.unfinished
        rw [hsame, Option.some.injEq] at hcode'
        subst hcode'
        rw [hbay, Option.some.injEq] at hbay'
        subst hbay'
        rw [hno, Option.some.injEq] at hno'
        exact ht (hs.orderNos t mission.taskId o order ho h.foundOrder hno')
  · intro code bay no hbay hno
    by_cases hkept : order.bayCode ≠ some code ∨ order'.status.unfinished = true
    · rw [h.bays code hkept] at hbay
      obtain ⟨hreserved, t, o, ho, hu, hsame, hcode⟩ := hs.named code bay no hbay hno
      refine ⟨hreserved, t, ?_⟩
      rw [h.orders]
      split
      · rename_i ht
        rw [ht, h.foundOrder, Option.some.injEq] at ho
        subst ho
        refine ⟨order', rfl, ?_, h.orderKept.2.2.1.trans hsame, h.orderKept.2.1.trans hcode⟩
        exact hkept.resolve_left fun hne => hne hcode
      · exact ⟨o, ho, hu, hsame, hcode⟩
    · rw [not_or, not_not, Bool.not_eq_true] at hkept
      rw [h.freed hkept.2 code bay hkept.1 hbay] at hno
      cases hno
  · intro t t' o o' ho ho' hno
    obtain ⟨o₀, ho₀, -, hno₀, -⟩ := h.before_order ho
    obtain ⟨o₁, ho₁, -, hno₁, -⟩ := h.before_order ho'
    exact hs.orderNos t t' o₀ o₁ ho₀ ho₁ (by rw [← hno₀, hno, hno₁])

end Moved

/-! ### A case is opened -/

/-- **A new case**: its unit, its bay and its vehicle were free. -/
structure Created (s s' : Store) (request : BreakdownCaseRequest) (bay : MaintenanceBay) : Prop where
  fresh : s.missions.find request.taskId = none
  unitFree : ∃ unit, s.units.find request.rescueUnitId = some unit ∧ unit.status = .available
  bayFree : s.bays.find bay.bayCode = some bay ∧ bay.status = .available
  vehicleFree : ∃ vehicle, s.vehicles.find request.vehicleId = some vehicle ∧
    underCase vehicle.status = false
  numberFree : ∀ t order, s.orders.find t = some order →
    order.orderNo ≠ orderNo request.taskId request.occurredAt
  missions : ∀ t, s'.missions.find t =
    if t = request.taskId then some (newMission request) else s.missions.find t
  orders : ∀ t, s'.orders.find t =
    if t = request.taskId then some (newOrder request bay) else s.orders.find t
  units : ∃ unit, s'.units.find request.rescueUnitId = some unit ∧ unit.status = .dispatched
  otherUnits : ∀ id, id ≠ request.rescueUnitId → s'.units.find id = s.units.find id
  bays : ∀ code, s'.bays.find code = if code = bay.bayCode then
    some { bay with
      status := .reserved, currentOrderNo := some (orderNo request.taskId request.occurredAt) }
    else s.bays.find code
  broken : ∃ vehicle, s'.vehicles.find request.vehicleId = some vehicle ∧
    vehicle.status = .waitingRescue
  otherVehicles : ∀ id vehicle, s.vehicles.find id = some vehicle → underCase vehicle.status = true →
    s'.vehicles.find id = some vehicle

section Created

variable {s s' : Store} {request : BreakdownCaseRequest} {bay : MaintenanceBay}

theorem Created.vehicle_ne (h : s.Created s' request bay) (hs : s.InStep) (ho : s.orders.find t = some o)
    (hu : o.status.unfinished = true) : o.vehicleId ≠ request.vehicleId := by
  intro heq
  obtain ⟨m, vehicle, -, -, hfind, hwant⟩ := hs.vehicle ho hu
  obtain ⟨vehicle', hfind', hfree⟩ := h.vehicleFree
  rw [heq, hfind', Option.some.injEq] at hfind
  rw [hfind, expected_underCase hwant] at hfree
  cases hfree

theorem Created.unit_ne (h : s.Created s' request bay) (hs : s.InStep) (hm : s.missions.find t = some m)
    (hu : m.status.undelivered = true) : m.rescueUnitId ≠ request.rescueUnitId := by
  intro heq
  obtain ⟨unit, hfind, hout⟩ := hs.unit t m hm hu
  obtain ⟨unit', hfind', hfree⟩ := h.unitFree
  rw [heq, hfind', Option.some.injEq] at hfind
  rw [hfind, hout] at hfree
  cases hfree

theorem Created.bay_ne (h : s.Created s' request bay) (hs : s.InStep) (ho : s.orders.find t = some o)
    (hu : o.status.unfinished = true) : o.bayCode ≠ some bay.bayCode := by
  intro heq
  obtain ⟨-, code, bay', hcode, hfind, hreserved, -⟩ := hs.bay t o ho hu
  rw [heq, Option.some.injEq] at hcode
  rw [← hcode, h.bayFree.1, Option.some.injEq] at hfind
  rw [← hfind, h.bayFree.2] at hreserved
  cases hreserved

/-- A new case leaves everything in step. -/
theorem InStep.created (hs : s.InStep) (h : s.Created s' request bay) : s'.InStep := by
  refine ⟨?_, ?_, ?_, ?_, ?_, ?_, ?_, ?_⟩
  · intro t
    rw [h.missions, h.orders]
    split
    · rfl
    · exact hs.paired t
  · intro t m o hm ho
    rw [h.missions] at hm
    rw [h.orders] at ho
    split at hm
    · rename_i ht
      rw [if_pos ht] at ho
      cases hm
      cases ho
      refine ⟨rfl, some .waitingRescue, rfl, fun status hw => ?_⟩
      obtain ⟨vehicle, hfind, hstatus⟩ := h.broken
      exact ⟨vehicle, hfind, hstatus.trans (Option.some.inj hw)⟩
    · rename_i ht
      rw [if_neg ht] at ho
      obtain ⟨hsame, want, hwant, hvehicle⟩ := hs.fits t m o hm ho
      refine ⟨hsame, want, hwant, fun status hw => ?_⟩
      obtain ⟨vehicle, hfind, rfl⟩ := hvehicle status hw
      rw [hw] at hwant
      exact ⟨vehicle, h.otherVehicles _ vehicle hfind (expected_underCase hwant), rfl⟩
  · intro t m hm hu
    rw [h.missions] at hm
    split at hm
    · cases hm
      exact h.units
    · obtain ⟨unit, hfind, hout⟩ := hs.unit t m hm hu
      refine ⟨unit, ?_, hout⟩
      rw [h.otherUnits _ (h.unit_ne hs hm hu)]
      exact hfind
  · intro t t' m m' hm hm' hu hu' hid
    rw [h.missions] at hm hm'
    split at hm
    · rename_i ht
      obtain rfl := Option.some.inj hm
      split at hm'
      · rename_i ht'
        rw [ht, ht']
      · exact absurd hid.symm (h.unit_ne hs hm' hu')
    · split at hm'
      · obtain rfl := Option.some.inj hm'
        exact absurd hid (h.unit_ne hs hm hu)
      · exact hs.unitAlone t t' m m' hm hm' hu hu' hid
  · intro t t' o o' ho ho' hu hu' hid
    rw [h.orders] at ho ho'
    split at ho
    · rename_i ht
      obtain rfl := Option.some.inj ho
      split at ho'
      · rename_i ht'
        rw [ht, ht']
      · exact absurd hid.symm (h.vehicle_ne hs ho' hu')
    · split at ho'
      · obtain rfl := Option.some.inj ho'
        exact absurd hid (h.vehicle_ne hs ho hu)
      · exact hs.vehicleAlone t t' o o' ho ho' hu hu' hid
  · intro t o ho hu
    rw [h.orders] at ho
    split at ho
    · obtain rfl := Option.some.inj ho
      refine ⟨rfl, bay.bayCode, { bay with
        status := .reserved
        currentOrderNo := some (orderNo request.taskId request.occurredAt) }, rfl, ?_, rfl, rfl⟩
      rw [h.bays, if_pos rfl]
    · obtain ⟨hnone, code, bay', hcode, hfind, hrest⟩ := hs.bay t o ho hu
      refine ⟨hnone, code, bay', hcode, ?_, hrest⟩
      have hne : code ≠ bay.bayCode := fun heq => h.bay_ne hs ho hu (heq ▸ hcode)
      rw [h.bays, if_neg hne]
      exact hfind
  · intro code bay' no hfind hno
    rw [h.bays] at hfind
    split at hfind
    · rename_i hcode
      cases hfind
      obtain rfl := Option.some.inj hno
      refine ⟨rfl, request.taskId, newOrder request bay, ?_, rfl, rfl, by rw [hcode]; rfl⟩
      rw [h.orders, if_pos rfl]
    · obtain ⟨hreserved, t, o, ho, hu, hsame, hcode⟩ := hs.named code bay' no hfind hno
      refine ⟨hreserved, t, o, ?_, hu, hsame, hcode⟩
      have hne : t ≠ request.taskId := by
        rintro rfl
        obtain ⟨m, hm⟩ := hs.mission ho
        rw [h.fresh] at hm
        cases hm
      rw [h.orders, if_neg hne]
      exact ho
  · intro t t' o o' ho ho' hno
    rw [h.orders] at ho ho'
    split at ho
    · rename_i ht
      obtain rfl := Option.some.inj ho
      split at ho'
      · rename_i ht'
        rw [ht, ht']
      · exact absurd hno.symm (h.numberFree t' o' ho')
    · split at ho'
      · obtain rfl := Option.some.inj ho'
        exact absurd hno (h.numberFree t o ho)
      · exact hs.orderNos t t' o o' ho ho' hno

end Created

end Store

end CountyFlow.Operations
