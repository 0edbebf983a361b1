import CountyFlow.Operations.Lockstep

/-!
# Vehicles that nobody brings back

A vehicle waiting for its rescue, towed, in the station or in quality assurance leaves that status only
through the order of its case.  A vehicle in such a status without an unfinished order is unattended.
-/

namespace CountyFlow.Operations

open CountyFlow.Lib
open CountyFlow.Dispatch (VehicleOperationalStatus)

variable {id t : String} {vehicle : FleetVehicle} {now : ℕ} {locked : List String} {commits : Bool}
  {snapshot : Option OperationCaseSnapshot}

namespace Store

/-- The vehicle is waiting for its rescue, towed, in the station or in quality assurance. -/
def UnderCase (s : Store) (id : String) : Prop :=
  ∃ vehicle, s.vehicles.find id = some vehicle ∧ underCase vehicle.status = true

/-- An unfinished order is about the vehicle. -/
def Attended (s : Store) (id : String) : Prop :=
  ∃ t order, s.orders.find t = some order ∧ order.status.unfinished = true ∧ order.vehicleId = id

/-- The vehicle is in a status that it leaves through an order, and there is none. -/
def Unattended (s : Store) (id : String) : Prop := s.UnderCase id ∧ ¬ s.Attended id

theorem unattended_congr {s s' : Store} (hv : s'.vehicles.find id = s.vehicles.find id)
    (ho : s'.Attended id ↔ s.Attended id) : s'.Unattended id ↔ s.Unattended id := by
  unfold Unattended UnderCase
  rw [hv, ho]

/-! ### A case moves on -/

section Moved

variable {s s' : Store} {mission mission' : RescueMission} {order order' : MaintenanceOrder}

theorem Moved.attended_iff (h : s.Moved s' mission mission' order order')
    (hid : id ≠ order.vehicleId) : s'.Attended id ↔ s.Attended id := by
  constructor
  · rintro ⟨t, o, ho, hopen, rfl⟩
    obtain ⟨o₀, ho₀, hvehicle, -, hopen₀⟩ := h.before_order ho
    exact ⟨t, o₀, ho₀, hopen₀ hopen, hvehicle.symm⟩
  · rintro ⟨t, o, ho, hopen, rfl⟩
    refine ⟨t, o, ?_, hopen, rfl⟩
    rw [h.orders, if_neg]
    · exact ho
    · rintro rfl
      rw [h.foundOrder, Option.some.injEq] at ho
      exact hid (by rw [ho])

theorem Moved.unattended (h : s.Moved s' mission mission' order order')
    (hfree : order'.status.unfinished = false → ¬ s'.UnderCase order.vehicleId) (id : String) :
    s'.Unattended id ↔ s.Unattended id := by
  by_cases hid : id = order.vehicleId
  · subst hid
    refine iff_of_false ?_ ?_
    · rintro ⟨hunder, hnone⟩
      cases hopen : order'.status.unfinished with
      | false => exact hfree hopen hunder
      | true =>
        refine hnone ⟨mission.taskId, order', ?_, hopen, h.orderKept.1⟩
        rw [h.orders, if_pos rfl]
    · rintro ⟨-, hnone⟩
      exact hnone ⟨mission.taskId, order, h.foundOrder, h.unfinished, rfl⟩
  · exact unattended_congr (h.others id hid) (h.attended_iff hid)

end Moved

/-! ### A case is opened -/

section Created

variable {s s' : Store} {request : BreakdownCaseRequest} {bay : MaintenanceBay}

theorem Created.attended_iff (h : s.Created s' request bay) (hs : s.InStep)
    (hid : id ≠ request.vehicleId) : s'.Attended id ↔ s.Attended id := by
  constructor
  · rintro ⟨t, o, ho, hopen, rfl⟩
    rw [h.orders] at ho
    split at ho
    · cases ho
      exact absurd rfl hid
    · exact ⟨t, o, ho, hopen, rfl⟩
  · rintro ⟨t, o, ho, hopen, rfl⟩
    refine ⟨t, o, ?_, hopen, rfl⟩
    rw [h.orders, if_neg]
    · exact ho
    · rintro rfl
      obtain ⟨m, hm⟩ := hs.mission ho
      rw [h.fresh] at hm
      cases hm

theorem Created.unattended (h : s.Created s' request bay) (hs : s.InStep)
    (hbefore : ∀ id v, s'.vehicles.find id = some v → underCase v.status = true →
      id = request.vehicleId ∨ s.vehicles.find id = some v) (id : String) :
    s'.Unattended id ↔ s.Unattended id := by
  by_cases hid : id = request.vehicleId
  · subst hid
    refine iff_of_false ?_ ?_
    · rintro ⟨-, hnone⟩
      refine hnone ⟨request.taskId, newOrder request bay, ?_, rfl, rfl⟩
      rw [h.orders, if_pos rfl]
    · rintro ⟨⟨vehicle, hfind, hunder⟩, -⟩
      obtain ⟨vehicle', hfind', hfree⟩ := h.vehicleFree
      rw [hfind, Option.some.injEq] at hfind'
      rw [← hfind', hunder] at hfree
      cases hfree
  · have hunder : s'.UnderCase id ↔ s.UnderCase id := by
      constructor
      · rintro ⟨v, hv, hcase⟩
        exact ⟨v, (hbefore id v hv hcase).resolve_left hid, hcase⟩
      · rintro ⟨v, hv, hcase⟩
        exact ⟨v, h.otherVehicles id v hv hcase, hcase⟩
    unfold Unattended
    rw [hunder, h.attended_iff hs hid]

end Created

/-! ### The timers -/

theorem releaseVehicleAndBay_orders {s s' : Store} {order : MaintenanceOrder} {passed : Bool}
    (h : s.releaseVehicleAndBay order vehicle passed now = .ok s') : s'.orders = s.orders := by
  unfold releaseVehicleAndBay at h
  obtain ⟨moved, -, h⟩ := bind_eq_ok.mp h
  rw [← Except.ok.inj h]
  show (Store.releaseBay _ order).orders = s.orders
  rw [releaseBay_eq]
  rfl

theorem maintenanceEffect_orders {s s' : Store} {order : MaintenanceOrder} {target : MaintenanceStatus}
    (h : s.maintenanceEffect order vehicle target now = .ok s') : s'.orders = s.orders := by
  unfold maintenanceEffect at h
  split at h
  · rw [← Except.ok.inj h]
    rfl
  · obtain ⟨moved, -, h⟩ := bind_eq_ok.mp h
    rw [← Except.ok.inj h]
    rfl
  · exact releaseVehicleAndBay_orders h
  · rw [← Except.ok.inj h]

theorem maintenanceTarget_completed {status : MaintenanceStatus}
    (h : maintenanceTarget status = .ok .completed) : status = .qaPending := by
  revert h
  cases status <;> intro h <;> first | rfl | cases h

/-- A completed order has released its vehicle. -/
theorem released_of_completed {s s' : Store} (hs : s.InStep)
    (h : s.advanceOneDueMaintenance now locked commits = .ok (snapshot, s')) {order order' : MaintenanceOrder}
    (ho : s.orders.find t = some order) (hopen : order.status.unfinished = true)
    (ho' : s'.orders.find t = some order')
    (hdone : order'.status = .completed) : ¬ s'.UnderCase order.vehicleId := by
  have hnot : order.status ≠ .completed := by
    intro heq
    rw [heq] at hopen
    cases hopen
  unfold advanceOneDueMaintenance at h
  split at h
  · obtain rfl : s = s' := (Prod.mk.inj (Except.ok.inj h)).2
    rw [ho, Option.some.injEq] at ho'
    exact absurd (ho' ▸ hdone) hnot
  · rename_i due hdue
    obtain ⟨hfound, -⟩ := dueOrder_some hdue
    split at h
    · -- an order that loses its timer keeps its status
      obtain ⟨⟨snapshot', store⟩, hcommit, h⟩ := bind_eq_ok.mp h
      obtain rfl : store = s' := (Prod.mk.inj (Except.ok.inj h)).2
      obtain rfl := commitOrder_ok hcommit
      have hrow : s.orders.find { due with nextTransitionAt := none }.taskId = some due := hfound
      have hfind : (s.orders.replace { due with nextTransitionAt := none }).find t = some order' := ho'
      rw [Table.find_replace_of hrow] at hfind
      split at hfind
      · rename_i ht
        cases hfind
        have hkey : t = due.taskId := ht
        rw [hkey, hfound, Option.some.injEq] at ho
        subst ho
        exact absurd hdone hnot
      · rw [ho, Option.some.injEq] at hfind
        exact absurd (hfind ▸ hdone) hnot
    · obtain ⟨target, htarget, h⟩ := bind_eq_ok.mp h
      obtain ⟨-, -, h⟩ := bind_eq_ok.mp h
      obtain ⟨vehicle, hvehicle, h⟩ := bind_eq_ok.mp h
      obtain ⟨effected, heffect, h⟩ := bind_eq_ok.mp h
      obtain ⟨⟨snapshot', store⟩, hcommit, h⟩ := bind_eq_ok.mp h
      obtain rfl : store = s' := (Prod.mk.inj (Except.ok.inj h)).2
      obtain rfl := commitOrder_ok hcommit
      rw [maintenanceEffect_orders heffect, find_recordMaintenance hfound] at ho'
      split at ho'
      · rename_i ht
        cases ho'
        rw [ht, hfound, Option.some.injEq] at ho
        subst ho
        rw [(advancedOrder_kept _ _ _).2.1] at hdone
        subst hdone
        have hqa := maintenanceTarget_completed htarget
        obtain ⟨mission, stationed, -, -, -, hv, hexpected⟩ :=
          hs.stationed hfound hopen (by rw [hqa]; decide)
        rw [hqa] at hexpected
        have hrow : s.vehicles.find due.vehicleId = some vehicle := vehicleForUpdate_ok.mp hvehicle
        rw [hv, Option.some.injEq] at hrow
        subst hrow
        have hid : stationed.vehicleId = due.vehicleId := Table.find_key hv
        have hfirst : (s.recordMaintenance due .completed now).vehicles.find stationed.vehicleId =
            some stationed := by
          rw [hid]
          exact hv
        obtain ⟨effected', vehicle', hresult, -, -, -, -, hvehicles, hstatus, -⟩ :=
          releaseVehicleAndBay_spec (s.recordMaintenance due .completed now)
            (advancedOrder due .completed now) hfirst
            (Option.some.inj (Option.some.inj hexpected)).symm true now
        have heffected : (s.recordMaintenance due .completed now).releaseVehicleAndBay
            (advancedOrder due .completed now) stationed true now = .ok store := heffect
        rw [heffected, Except.ok.injEq] at hresult
        subst hresult
        rintro ⟨v, hfind, hunder⟩
        rw [hvehicles, if_pos hid.symm, Option.some.injEq] at hfind
        rw [← hfind, hstatus] at hunder
        cases hunder
      · rw [ho, Option.some.injEq] at ho'
        exact absurd (ho' ▸ hdone) hnot

theorem unfinished_of_rescue {s s' : Store} (hs : s.InStep)
    (h : s.advanceOneDueRescue now locked commits = .ok (snapshot, s')) {order order' : MaintenanceOrder}
    (ho : s.orders.find t = some order) (hopen : order.status.unfinished = true)
    (ho' : s'.orders.find t = some order') : order'.status.unfinished = true := by
  rcases advanceOneDueRescue_spec hs now locked commits with hnone |
    ⟨mission, mission', order₁, order₁', -, horder, hadvances⟩
  · rw [h] at hnone
    obtain rfl : s' = s := (Prod.mk.inj (Except.ok.inj hnone)).2
    rw [ho, Option.some.injEq] at ho'
    exact ho' ▸ hopen
  · obtain ⟨hmoved, -⟩ := System.advances_ok hadvances h
    rw [hmoved.orders] at ho'
    split at ho'
    · cases ho'
      rcases horder with rfl | hwaits
      · exact hmoved.unfinished
      · rw [hwaits]
        rfl
    · rw [ho, Option.some.injEq] at ho'
      exact ho' ▸ hopen

end Store

/-! ### Runs -/

namespace System

theorem timer_frees {s s' : System} {a : Action} (hs : s.Sound) (h : s.step a = some s')
    (htimer : isTimer a = true) {mission mission' : RescueMission} {order order' : MaintenanceOrder}
    (hmoved : s.store.Moved s'.store mission mission' order order') (hfailed : order'.status ≠ .failed)
    (hdone : order'.status.unfinished = false) : ¬ s'.store.UnderCase order.vehicleId := by
  have hcompleted : order'.status = .completed := by
    have hclosed : ¬ _ := of_decide_eq_false hdone
    rw [not_and_or, not_not, not_not] at hclosed
    exact hclosed.resolve_right hfailed
  have hfind : s'.store.orders.find mission.taskId = some order' := by
    rw [hmoved.orders, if_pos rfl]
  cases a with
  | advanceOneDueRescue now locked commits =>
    obtain ⟨⟨snapshot, store⟩, hok, rfl⟩ := Option.map_eq_some_iff.mp h
    rw [toOption_eq_some] at hok
    have hopen := Store.unfinished_of_rescue hs.inStep hok hmoved.foundOrder hmoved.unfinished hfind
    rw [hdone] at hopen
    cases hopen
  | advanceOneDueMaintenance now locked commits =>
    obtain ⟨⟨snapshot, store⟩, hok, rfl⟩ := Option.map_eq_some_iff.mp h
    rw [toOption_eq_some] at hok
    exact Store.released_of_completed hs.inStep hok hmoved.foundOrder hmoved.unfinished hfind
      hcompleted
  | _ => cases htimer

/-- No step changes which vehicles are unattended. -/
theorem step_unattended {s s' : System} {a : Action} (hs : s.Sound) (h : s.step a = some s')
    (id : String) : s'.store.Unattended id ↔ s.store.Unattended id := by
  have hchange := step_change hs h
  generalize hstore : s'.store = store' at hchange ⊢
  cases hchange with
  | quiet hsame =>
    refine Store.unattended_congr (by rw [hsame.vehicles]) ?_
    unfold Store.Attended
    rw [hsame.orders]
  | created _ _ =>
    obtain ⟨⟨snapshot, store⟩, hok, rfl⟩ := Option.map_eq_some_iff.mp h
    rw [toOption_eq_some] at hok
    subst hstore
    rcases Store.createBreakdownCase_ok hok with hsame | ⟨⟨bay, hcreated⟩, -, hbefore⟩
    · have hstore : store = s.store := hsame
      rw [hstore]
    · exact hcreated.unattended hs.inStep hbefore id
  | timed htimer hmoved _ _ hfailed =>
    subst hstore
    exact hmoved.unattended (timer_frees hs h htimer hmoved hfailed) id
  | @inspected passed commits decidedAt decidedBy _ mission order order' vehicle' _ _ hmoved _ hfind
      hstatus =>
      refine hmoved.unattended (fun _ => ?_) id
      rintro ⟨vehicle, hvehicle, hunder⟩
      rw [hfind, Option.some.injEq] at hvehicle
      rw [← hvehicle, hstatus] at hunder
      cases passed <;> cases hunder
  | @reserved p vehicle hfind havailable =>
    have hrow : s.store.vehicles.find { vehicle with status := .reserved }.vehicleId =
        some vehicle := hfind
    by_cases hid : id = vehicle.vehicleId
    · -- neither the available vehicle nor the reserved one is under a case
      subst hid
      refine iff_of_false ?_ ?_
      · rintro ⟨⟨v, hv, hunder⟩, -⟩
        rw [Store.find_writeVehicle hrow, if_pos rfl, Option.some.injEq] at hv
        rw [← hv] at hunder
        cases hunder
      · rintro ⟨⟨v, hv, hunder⟩, -⟩
        rw [hfind, Option.some.injEq] at hv
        rw [← hv, havailable] at hunder
        cases hunder
    · refine Store.unattended_congr ?_ Iff.rfl
      rw [Store.find_writeVehicle hrow, if_neg hid]

theorem unattended_of_run {s₀ s : System} {run : List Action} (h₀ : s₀.Initial)
    (hrun : exec step s₀ run = some s) (id : String) : s.store.Unattended id ↔ s₀.store.UnderCase id := by
  have hstep : ∀ (s₁ : System) a s₂,
      (s₁.Sound ∧ (s₁.store.Unattended id ↔ s₀.store.Unattended id)) → s₁.step a = some s₂ →
      s₂.Sound ∧ (s₂.store.Unattended id ↔ s₀.store.Unattended id) := by
    rintro s₁ a s₂ ⟨hs₁, hsame⟩ h
    exact ⟨step_sound hs₁ h, (step_unattended hs₁ h id).trans hsame⟩
  have hkept := exec_preserves hstep hrun ⟨sound_of_initial h₀, Iff.rfl⟩
  have hnone : ¬ s₀.store.Attended id := by
    rintro ⟨t, order, ho, -⟩
    have hmem := Table.find_mem ho
    rw [h₀.orders] at hmem
    cases hmem
  rw [hkept.2]
  exact and_iff_left hnone

end System

end CountyFlow.Operations
