import CountyFlow.Operations.Lockstep

/-!
# No return to service without the required inspection

The timer and the inspector both complete orders.  Every step of every run is looked at: what it completes,
which vehicle it makes available, and that a failed inspection is for good.
-/

namespace CountyFlow.Operations

open CountyFlow.Lib
open CountyFlow.Dispatch (VehicleOperationalStatus)

variable {t : String} {order : MaintenanceOrder} {vehicle vehicle' : FleetVehicle}

namespace System

def passesInspection (a : Action) (orderNo : String) : Prop :=
  ∃ decidedAt decidedBy commits, a = .recordInspection orderNo true decidedAt decidedBy commits

section Step

variable {s s' : System} {a : Action}

theorem completed_by_inspection (hs : s.Sound) (h : s.step a = some s') {order' : MaintenanceOrder}
    (ho' : s'.store.orders.find t = some order') (hmanual : order'.manualInspectionRequired = true)
    (hdone : order'.status = .completed)
    (hnew : ∀ order, s.store.orders.find t = some order → order.status ≠ .completed) :
    passesInspection a order'.orderNo := by
  have hchange := step_change hs h
  generalize s'.store = store' at *
  cases hchange with
  | quiet hsame =>
    rw [hsame.orders] at ho'
    exact absurd hdone (hnew order' ho')
  | created hcreated _ =>
    rw [hcreated.orders] at ho'
    split at ho'
    · cases ho'
      cases hdone
    · exact absurd hdone (hnew order' ho')
  | timed _ hmoved _ hcompleted _ =>
    rw [hmoved.orders] at ho'
    split at ho'
    · cases ho'
      rw [hmoved.orderKept.2.2.2, hcompleted hdone] at hmanual
      cases hmanual
    · exact absurd hdone (hnew order' ho')
  | @inspected passed commits decidedAt decidedBy _ mission order₁ order₁' vehicle' hqa hto hmoved =>
    rw [hmoved.orders] at ho'
    split at ho'
    · cases ho'
      cases passed with
      | false =>
        rw [hto] at hdone
        cases hdone
      | true => exact ⟨decidedAt, decidedBy, commits, by rw [hmoved.orderKept.2.2.1]⟩
    · exact absurd hdone (hnew order' ho')
  | reserved _ _ => exact absurd hdone (hnew order' ho')

/-- Where an inspection is due, nothing else sets the vehicle free. -/
theorem available_by_inspection (hs : s.Sound) (h : s.step a = some s')
    (ho : s.store.orders.find t = some order) (hmanual : order.manualInspectionRequired = true)
    (hopen : order.status.unfinished = true) (hv : s.store.vehicles.find order.vehicleId = some vehicle)
    (hqa : vehicle.status = .qaPending) (hv' : s'.store.vehicles.find order.vehicleId = some vehicle')
    (hfree : vehicle'.status = .available) : passesInspection a order.orderNo := by
  have hin := hs.inStep
  have hchange := step_change hs h
  have hsame : vehicle' ≠ vehicle := by
    rintro rfl
    rw [hqa] at hfree
    cases hfree
  generalize s'.store = store' at *
  -- the case that moves is the case of the vehicle, or the vehicle stays as it is
  have hcase : ∀ {mission mission' : RescueMission} {order₁ order₁' : MaintenanceOrder},
      s.store.Moved store' mission mission' order₁ order₁' → order₁ = order := by
    intro mission mission' order₁ order₁' hmoved
    by_cases heq : order.vehicleId = order₁.vehicleId
    · obtain rfl := hin.vehicleAlone t mission.taskId order order₁ ho hmoved.foundOrder hopen
        hmoved.unfinished heq
      exact Option.some.inj (hmoved.foundOrder.symm.trans ho)
    · rw [hmoved.others _ heq, hv, Option.some.injEq] at hv'
      exact absurd hv'.symm hsame
  cases hchange with
  | quiet hquiet =>
    rw [hquiet.vehicles, hv, Option.some.injEq] at hv'
    exact absurd hv'.symm hsame
  | created hcreated _ =>
    rw [hcreated.otherVehicles _ vehicle hv (by rw [hqa]; rfl), Option.some.injEq] at hv'
    exact absurd hv'.symm hsame
  | timed _ hmoved _ hcompleted hfailed =>
    obtain rfl := hcase hmoved
    obtain ⟨moved, want, hfind, hwant, hstatus⟩ := hmoved.fits
    rw [hv', Option.some.injEq] at hfind
    subst hfind
    -- a timer leaves the order unfinished, and the vehicle under it
    have hunfinished := expected_unfinished hwant
    cases want with
    | some status =>
      have hunder := expected_underCase hwant
      rw [← hstatus status rfl, hfree] at hunder
      cases hunder
    | none =>
      have hdone : ¬ _ := of_decide_eq_false hunfinished
      rw [not_and_or, not_not, not_not] at hdone
      rcases hdone with hdone | hdone
      · rw [hcompleted hdone] at hmanual
        cases hmanual
      · exact absurd hdone hfailed
  | @inspected passed commits decidedAt decidedBy _ mission order₁ order₁' moved _ _ hmoved _ hfind
      hstatus =>
      obtain rfl := hcase hmoved
      rw [hv', Option.some.injEq] at hfind
      subst hfind
      cases passed with
      | false =>
        rw [hfree] at hstatus
        cases hstatus
      | true => exact ⟨decidedAt, decidedBy, commits, rfl⟩
  | @reserved p reserved hfind _ =>
    have hrow : s.store.vehicles.find { reserved with status := .reserved }.vehicleId =
        some reserved := hfind
    rw [Store.find_writeVehicle hrow] at hv'
    split at hv'
    · cases hv'
      cases hfree
    · rw [hv, Option.some.injEq] at hv'
      exact absurd hv'.symm hsame

theorem reserves_free (hs : s.Sound) {p : ℕ} (h : s.step (.reserve p) = some s')
    (ho : s.store.orders.find t = some order) (hopen : order.status.unfinished = true)
    (hv : s.store.vehicles.find order.vehicleId = some vehicle)
    (hv' : s'.store.vehicles.find order.vehicleId = some vehicle') : vehicle' = vehicle := by
  have hchange := step_change hs h
  generalize s'.store = store' at *
  cases hchange with
  | quiet hquiet =>
    rw [hquiet.vehicles, hv, Option.some.injEq] at hv'
    exact hv'.symm
  | timed htimer => cases htimer
  | @reserved _ reserved hfind havailable =>
    have hrow : s.store.vehicles.find { reserved with status := .reserved }.vehicleId =
        some reserved := hfind
    rw [Store.find_writeVehicle hrow] at hv'
    split at hv'
    · rename_i hid
      obtain ⟨mission, under, -, -, hunder, hexpected⟩ := hs.inStep.vehicle ho hopen
      have hkey : order.vehicleId = reserved.vehicleId := hid
      rw [hkey, hfind, Option.some.injEq] at hunder
      have hcase := expected_underCase hexpected
      rw [← hunder, havailable] at hcase
      cases hcase
    · rw [hv, Option.some.injEq] at hv'
      exact hv'.symm

theorem stays_out_of_service {run : List Action} (hs : s.Sound) (hrun : exec step s run = some s')
    {id : String} (hv : s.store.vehicles.find id = some vehicle) (hout : vehicle.status = .outOfService) :
    ∃ vehicle', s'.store.vehicles.find id = some vehicle' ∧ vehicle'.status = .outOfService := by
  have hstep : ∀ (s₁ : System) a s₂, (s₁.Sound ∧ ∃ v, s₁.store.vehicles.find id = some v ∧
      v.status = .outOfService) → s₁.step a = some s₂ →
      s₂.Sound ∧ ∃ v, s₂.store.vehicles.find id = some v ∧ v.status = .outOfService := by
    rintro s₁ a s₂ ⟨hs₁, v₁, hv₁, hout₁⟩ hstep
    obtain ⟨v₂, hv₂, hlater⟩ := (step_change hs₁ hstep).evolves id v₁ hv₁
    refine ⟨step_sound hs₁ hstep, v₂, hv₂, ?_⟩
    rcases hlater with rfl | ⟨-, hkept⟩
    · exact hout₁
    · exact hkept hout₁
  exact (exec_preserves hstep hrun ⟨hs, vehicle, hv, hout⟩).2

end Step

/-- **The required inspection.**  In every step of every run: an order that a person must inspect is
completed, and its vehicle leaves quality assurance for service, only by a passed inspection of that
order; a failed inspection leaves the vehicle out of service for the rest of the run; and the
dispatcher leaves the vehicle of an unfinished order alone. -/
theorem inspection_required {s₀ s s' : System} {run : List Action} {a : Action} (h₀ : s₀.Initial)
    (hrun : exec step s₀ run = some s) (h : s.step a = some s') :
    (∀ t order', s'.store.orders.find t = some order' → order'.manualInspectionRequired = true →
      order'.status = .completed →
      (∀ order, s.store.orders.find t = some order → order.status ≠ .completed) →
      passesInspection a order'.orderNo) ∧
    (∀ t order vehicle vehicle', s.store.orders.find t = some order →
      order.manualInspectionRequired = true → order.status.unfinished = true →
      s.store.vehicles.find order.vehicleId = some vehicle → vehicle.status = .qaPending →
      s'.store.vehicles.find order.vehicleId = some vehicle' → vehicle'.status = .available →
      passesInspection a order.orderNo) ∧
    (∀ order ∈ s.store.orders.rows, ∀ decidedAt decidedBy commits,
      a = .recordInspection order.orderNo false decidedAt decidedBy commits →
      ∀ rest s'', exec step s' rest = some s'' → ∃ vehicle,
        s''.store.vehicles.find order.vehicleId = some vehicle ∧ vehicle.status = .outOfService) ∧
    (∀ p, a = .reserve p → ∀ order ∈ s.store.orders.rows, order.status.unfinished = true →
      s'.store.vehicles.find order.vehicleId = s.store.vehicles.find order.vehicleId) := by
  have hs := sound_of_run h₀ hrun
  refine ⟨?_, ?_, ?_, ?_⟩
  · intro t order' ho' hmanual hdone hnew
    exact completed_by_inspection hs h ho' hmanual hdone hnew
  · intro t order vehicle vehicle' ho hmanual hopen hv hqa hv' hfree
    exact available_by_inspection hs h ho hmanual hopen hv hqa hv' hfree
  · rintro order hmem decidedAt decidedBy commits rfl rest s'' hrest
    obtain ⟨⟨snapshot, store⟩, hok, rfl⟩ := Option.map_eq_some_iff.mp h
    rw [toOption_eq_some] at hok
    obtain ⟨mission, order₁, order₁', vehicle', hno, -, -, hmoved, -, hfind, hout⟩ :=
      Store.recordInspection_ok hs.inStep hok
    obtain rfl : order₁ = order := by
      have htask := hs.inStep.orderNos _ _ order₁ order hmoved.foundOrder (Table.find_of_mem hmem) hno
      have hfound := hmoved.foundOrder
      rw [htask, Table.find_of_mem hmem, Option.some.injEq] at hfound
      exact hfound.symm
    exact stays_out_of_service (step_sound hs h) hrest hfind hout
  · rintro p rfl order hmem hopen
    obtain ⟨mission, vehicle, -, -, hv, -⟩ := hs.inStep.vehicle (Table.find_of_mem hmem) hopen
    obtain ⟨vehicle', hv', -⟩ := (step_change hs h).evolves _ vehicle hv
    rw [hv, hv', reserves_free hs h (Table.find_of_mem hmem) hopen hv hv']

/-- The repaired vehicle fails its inspection. -/
theorem inspection_required_failed : ∃ s s', exec step seeded brakeRepair = some s ∧
    s.step (.recordInspection "WX-20220928-007" false 63800007300 "inspector" true) = some s' ∧
    ∀ rest s'', exec step s' rest = some s'' → ∃ vehicle,
      s''.store.vehicles.find "V-001" = some vehicle ∧ vehicle.status = .outOfService := by
  have hrun : ((exec step seeded brakeRepair).map fun s =>
      (s.store.orders.rows.map fun order => (order.orderNo, order.vehicleId),
        (s.step (.recordInspection "WX-20220928-007" false 63800007300 "inspector" true)).isSome)) =
      some ([("WX-20220928-007", "V-001")], true) := by decide +kernel
  obtain ⟨s, hs, hfacts⟩ := Option.map_eq_some_iff.mp hrun
  obtain ⟨horders, hstep⟩ := Prod.mk.inj hfacts
  obtain ⟨s', hs'⟩ := Option.isSome_iff_exists.mp hstep
  have hmem : ("WX-20220928-007", "V-001") ∈
      s.store.orders.rows.map fun order => (order.orderNo, order.vehicleId) := by
    rw [horders]
    exact List.mem_singleton_self _
  obtain ⟨order, horder, hkeys⟩ := List.mem_map.mp hmem
  obtain ⟨hno, hvehicle⟩ := Prod.mk.inj hkeys
  refine ⟨s, s', hs, hs', fun rest s'' hrest => ?_⟩
  rw [← hvehicle]
  exact (inspection_required seeded_initial hs hs').2.2.1 order horder _ _ _ (by rw [hno]) rest s''
    hrest

end System

end CountyFlow.Operations
