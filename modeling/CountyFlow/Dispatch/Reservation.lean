import CountyFlow.Dispatch.System

/-!
# One dispatch and one reservation

A call that creates a dispatch has loaded its vehicle while it was `AVAILABLE`, and the version of the
row says that nobody has touched it since.
-/

namespace CountyFlow.Dispatch

open CountyFlow.Lib CountyFlow.Worker Function

variable {store' : Store} {vehicle : FleetVehicle} {dispatches : Table DispatchRow DispatchRow.taskId}
  {t : String}

namespace Store

/-- What every action leaves of the vehicles and the dispatches. -/
structure Extends (store store' : Store) : Prop where
  vehicle : ∀ id v, store.vehicles.find id = some v → ∃ v', store'.vehicles.find id = some v' ∧
    v.version ≤ v'.version ∧ (v'.version = v.version → v' = v)
  dispatch : ∀ t d, store.dispatches.find t = some d → ∃ d', store'.dispatches.find t = some d' ∧
    d'.id = d.id ∧ d'.targetVehicleId = d.targetVehicleId ∧ d'.targetDriverId = d.targetDriverId

theorem Extends.of_eq {store : Store} (hv : store'.vehicles = store.vehicles)
    (hd : store'.dispatches = store.dispatches) : Extends store store' := by
  refine ⟨fun id v h => ?_, fun t d h => ?_⟩
  · rw [hv]
    exact ⟨v, h, le_rfl, fun _ => rfl⟩
  · rw [hd]
    exact ⟨d, h, rfl, rfl, rfl⟩

theorem Extends.trans {a b c : Store} (hab : Extends a b) (hbc : Extends b c) : Extends a c := by
  refine ⟨fun id v h => ?_, fun t d h => ?_⟩
  · obtain ⟨v₁, h₁, hle₁, heq₁⟩ := hab.vehicle id v h
    obtain ⟨v₂, h₂, hle₂, heq₂⟩ := hbc.vehicle id v₁ h₁
    refine ⟨v₂, h₂, hle₁.trans hle₂, fun hsame => ?_⟩
    have hmid : v₂.version = v₁.version := by omega
    rw [heq₂ hmid]
    exact heq₁ (by omega)
  · obtain ⟨d₁, h₁, hid₁, hv₁, hr₁⟩ := hab.dispatch t d h
    obtain ⟨d₂, h₂, hid₂, hv₂, hr₂⟩ := hbc.dispatch t d₁ h₁
    exact ⟨d₂, h₂, hid₂.trans hid₁, hv₂.trans hv₁, hr₂.trans hr₁⟩

theorem vehicle_replace {vehicles : Table FleetVehicle FleetVehicle.vehicleId} (vehicle' : FleetVehicle)
    (hfind : vehicles.find vehicle'.vehicleId = some vehicle)
    (hversion : vehicle'.version = vehicle.version + 1) {id : String} {v : FleetVehicle}
    (h : vehicles.find id = some v) : ∃ v', (vehicles.replace vehicle').find id = some v' ∧
      v.version ≤ v'.version ∧ (v'.version = v.version → v' = v) := by
  by_cases hid : id = vehicle'.vehicleId
  · subst hid
    rw [hfind] at h
    cases h
    refine ⟨vehicle', Table.find_replace_self hfind, by omega, fun hsame => ?_⟩
    omega
  · refine ⟨v, ?_, le_rfl, fun _ => rfl⟩
    rw [Table.find_replace_ne _ _ hid]
    exact h

theorem dispatch_add {dispatches' : Table DispatchRow DispatchRow.taskId} {row : DispatchRow}
    (hadd : dispatches.add row = some dispatches') {d : DispatchRow}
    (h : dispatches.find t = some d) : dispatches'.find t = some d := by
  rw [Table.find_add hadd]
  split
  · rename_i ht
    have hnone := Table.find_none_of_add hadd
    rw [← ht, h] at hnone
    cases hnone
  · exact h

end Store

variable {targets : List VehicleOperationalStatus}

theorem FleetVehicle.transition_id {vehicle' : FleetVehicle}
    (h : vehicle.transition targets = some vehicle') : vehicle'.vehicleId = vehicle.vehicleId := by
  induction targets generalizing vehicle with
  | nil => rw [Option.some.inj h]
  | cons target targets ih =>
    unfold FleetVehicle.transition at h
    split at h
    · have hid := ih h
      exact hid
    · cases h

theorem FleetVehicle.transition_reserved {vehicle' : FleetVehicle}
    (h : vehicle.transition targets = some vehicle')
    (hreserved : vehicle'.status = .reserved) : vehicle.status = .reserved := by
  induction targets generalizing vehicle with
  | nil =>
    rw [Option.some.inj h]
    exact hreserved
  | cons target targets ih =>
    unfold FleetVehicle.transition at h
    split at h
    · rename_i htarget
      exact absurd (ih h) htarget.2
    · cases h

variable {decision : ReviewDecision} {reason : Option String} {auditId : ℕ}

namespace Store

theorem operate_ok {store : Store} {changes : List (String × List VehicleOperationalStatus)}
    (h : store.operate changes = some store') :
    Extends store store' ∧ store'.tasks = store.tasks ∧ store'.dispatches = store.dispatches ∧
      store'.evidence = store.evidence ∧
      ∀ id v', store'.vehicles.find id = some v' → v'.status = .reserved →
        ∃ v, store.vehicles.find id = some v ∧ v.status = .reserved := by
  induction changes generalizing store with
  | nil =>
    cases h
    exact ⟨.of_eq rfl rfl, rfl, rfl, rfl, fun id v' hv' hr => ⟨v', hv', hr⟩⟩
  | cons change changes ih =>
    obtain ⟨vehicleId, targets⟩ := change
    obtain ⟨vehicle, hfind, h₁⟩ := Option.bind_eq_some_iff.mp h
    obtain ⟨vehicle', htransition, h₂⟩ := Option.bind_eq_some_iff.mp h₁
    obtain ⟨hext, htasks, hdispatches, hevidence, hreserved⟩ := ih h₂
    obtain rfl := Table.find_key hfind
    have hid : vehicle'.vehicleId = vehicle.vehicleId := FleetVehicle.transition_id htransition
    have hstatus := FleetVehicle.transition_reserved htransition
    obtain ⟨written, hwritten⟩ : ∃ w : FleetVehicle,
        w = { vehicle' with version := vehicle.version + 1 } := ⟨_, rfl⟩
    have hfind' : store.vehicles.find written.vehicleId = some vehicle := by
      rw [hwritten]
      show store.vehicles.find vehicle'.vehicleId = some vehicle
      rw [hid]
      exact hfind
    have hone : Extends store { store with vehicles := store.vehicles.replace written } := by
      refine ⟨fun id v hv => vehicle_replace written hfind' ?_ hv,
        fun t d hd => ⟨d, hd, rfl, rfl, rfl⟩⟩
      rw [hwritten]
    rw [hwritten] at hone
    refine ⟨hone.trans hext, htasks, hdispatches, hevidence, fun id v₂ hv₂ hr₂ => ?_⟩
    obtain ⟨v₁, hv₁, hr₁⟩ := hreserved id v₂ hv₂ hr₂
    have hv₁' : (store.vehicles.replace written).find id = some v₁ := by
      rw [hwritten]
      exact hv₁
    by_cases heq : id = written.vehicleId
    · subst heq
      rw [Table.find_replace_self hfind'] at hv₁'
      refine ⟨vehicle, hfind', hstatus ?_⟩
      rw [← Option.some.inj hv₁', hwritten] at hr₁
      exact hr₁
    · rw [Table.find_replace_ne _ _ heq] at hv₁'
      exact ⟨v₁, hv₁', hr₁⟩

theorem decide_ok {store : Store} (h : store.decide t decision reason auditId = some store') :
    ∃ task task' dispatch dispatch', store.tasks.find t = some task ∧
      task.status = .reviewRequired ∧ task'.taskId = t ∧ task'.status = decision.status ∧
      store.dispatches.find t = some dispatch ∧ dispatch'.taskId = t ∧
      dispatch'.id = dispatch.id ∧ dispatch'.targetVehicleId = dispatch.targetVehicleId ∧
      dispatch'.targetDriverId = dispatch.targetDriverId ∧
      dispatch'.status = decision.dispatchStatus ∧
      store'.vehicles = store.vehicles ∧ store'.tasks = store.tasks.replace task' ∧
      store'.dispatches = store.dispatches.replace dispatch' := by
  unfold decide at h
  split at h
  · rename_i normalized task dispatch _ htask hdispatch
    split at h
    · rename_i hstatus
      cases h
      have htaskId : task.taskId = t := Table.find_key htask
      have hdispatchId : dispatch.taskId = t := Table.find_key hdispatch
      exact ⟨task, { task with status := decision.status }, dispatch,
        { dispatch with
          status := decision.dispatchStatus
          version := dispatch.version + 1 },
        htask, hstatus, htaskId, rfl, hdispatch, hdispatchId, rfl, rfl, rfl, rfl, rfl, rfl, rfl⟩
    · cases h
  · cases h

theorem decide_extends {store : Store} (h : store.decide t decision reason auditId = some store') :
    Extends store store' := by
  obtain ⟨-, -, dispatch, dispatch', -, -, -, -, hdispatch, ht', hid, hvehicle, hdriver, -, hv, -, hd⟩ :=
    decide_ok h
  refine ⟨fun id v hfind => ?_, fun t₁ d hfind => ?_⟩
  · rw [hv]
    exact ⟨v, hfind, le_rfl, fun _ => rfl⟩
  · rw [hd]
    by_cases ht : t₁ = dispatch'.taskId
    · rw [ht, ht', hdispatch] at hfind
      cases hfind
      rw [ht]
      exact ⟨dispatch', Table.find_replace_self (by rw [ht']; exact hdispatch), hid, hvehicle, hdriver⟩
    · rw [Table.find_replace_ne _ _ ht]
      exact ⟨d, hfind, rfl, rfl, rfl⟩

theorem persistAudit_same (store : Store) (t : String) (dispatchId auditId : ℕ) (result : AuditResult)
    (reason : String) :
    (store.persistAudit t dispatchId auditId result reason).vehicles = store.vehicles ∧
      (store.persistAudit t dispatchId auditId result reason).dispatches = store.dispatches ∧
      (store.persistAudit t dispatchId auditId result reason).evidence = store.evidence ∧
      (store.persistAudit t dispatchId auditId result reason).tasks = store.tasks := by
  unfold persistAudit
  split <;> exact ⟨rfl, rfl, rfl, rfl⟩

end Store

theorem CallState.Moves.extends {store : Store} {st st' : CallState}
    (h : Moves store st st' store') : store.Extends store' := by
  cases h with
  | quiet _ _ _ => exact .of_eq rfl rfl
  | loaded _ _ _ _ => exact .of_eq rfl rfl
  | replayed _ _ => exact .of_eq rfl rfl
  | created hadd =>
    exact ⟨fun id v hv => ⟨v, hv, le_rfl, fun _ => rfl⟩,
      fun t d hd => ⟨d, Store.dispatch_add hadd hd, rfl, rfl, rfl⟩⟩
  | @reserved r c loaded vehicle rest dispatchNo dispatches hfind hversion hadd =>
    refine ⟨fun id v hv => ?_, fun t d hd => ⟨d, Store.dispatch_add hadd hd, rfl, rfl, rfl⟩⟩
    have hid : vehicle.vehicleId = loaded.vehicleId := Table.find_key hfind
    rw [← hid] at hfind
    exact Store.vehicle_replace
      { vehicle with status := .reserved, version := vehicle.version + 1 } hfind rfl hv

variable {a : Action} {p : ℕ} {r : DispatchRequest} {s' : System} {o : CallOutcome}

namespace System

/-- Where runs begin: any tables, and no call. -/
def Initial (s : System) : Prop := ∀ p, s.calls p = .idle

/-- What a call has loaded was `AVAILABLE` and still is if its version is; what a call has returned is
the dispatch of its task. -/
structure Sound (s : System) : Prop where
  loaded : ∀ p r c v rest, s.calls p = .committing r (some (c, v)) rest →
    text c.vehicleId = some v.vehicleId ∧ ∃ v', s.store.vehicles.find v.vehicleId = some v' ∧
      v.version ≤ v'.version ∧ (v'.version = v.version → v'.status = .available)
  returned : ∀ p r result, (s.calls p).request = some r → (s.calls p).returned = some result →
    ∃ d, s.store.dispatches.find r.taskId = some d ∧ d.id = result.dispatchId ∧
      d.targetVehicleId = result.targetVehicleId ∧ d.targetDriverId = result.targetDriverId

variable {s : System}

theorem Sound.store {store : Store} (hs : s.Sound) (hext : s.store.Extends store) :
    ({ s with store := store } : System).Sound := by
  refine ⟨fun p r c v rest hp => ?_, fun p r result hr hresult => ?_⟩
  · obtain ⟨hc, v₁, hv₁, hle₁, hstatus⟩ := hs.loaded p r c v rest hp
    obtain ⟨v₂, hv₂, hle₂, heq⟩ := hext.vehicle v.vehicleId v₁ hv₁
    refine ⟨hc, v₂, hv₂, hle₁.trans hle₂, fun hsame => ?_⟩
    rw [heq (by omega)]
    exact hstatus (by omega)
  · obtain ⟨d, hd, hid, hvehicle, hdriver⟩ := hs.returned p r result hr hresult
    obtain ⟨d', hd', hid', hvehicle', hdriver'⟩ := hext.dispatch _ d hd
    exact ⟨d', hd', hid'.trans hid, hvehicle'.trans hvehicle, hdriver'.trans hdriver⟩

theorem Sound.move {st : CallState} (hs : s.Sound)
    (hloaded : ∀ r c v rest, st = .committing r (some (c, v)) rest →
      text c.vehicleId = some v.vehicleId ∧ s.store.vehicles.find v.vehicleId = some v ∧
        v.status = .available)
    (hreturned : ∀ r result, st.request = some r → st.returned = some result →
      ∃ d, s.store.dispatches.find r.taskId = some d ∧ d.id = result.dispatchId ∧
        d.targetVehicleId = result.targetVehicleId ∧ d.targetDriverId = result.targetDriverId) :
    ({ s with calls := update s.calls p st } : System).Sound := by
  refine ⟨fun q r c v rest hq => ?_, fun q r result hr hresult => ?_⟩
  · have hq' : update s.calls p st q = .committing r (some (c, v)) rest := hq
    rw [update_apply] at hq'
    split at hq'
    · obtain ⟨hc, hv, hstatus⟩ := hloaded r c v rest hq'
      exact ⟨hc, v, hv, le_rfl, fun _ => hstatus⟩
    · exact hs.loaded q r c v rest hq'
  · have hr' : (update s.calls p st q).request = some r := hr
    have hresult' : (update s.calls p st q).returned = some result := hresult
    rw [update_apply] at hr' hresult'
    split at hr'
    · rename_i hqp
      rw [if_pos hqp] at hresult'
      exact hreturned r result hr' hresult'
    · rename_i hqp
      rw [if_neg hqp] at hresult'
      exact hs.returned q r result hr' hresult'

theorem created_dispatch {store : Store} {c : Option CandidateState} {dispatchNo : String}
    (hadd : store.dispatches.add (r.row c store.nextId dispatchNo) = some dispatches) :
    ∃ d, dispatches.find r.taskId = some d ∧
      d.id = (r.created c store.nextId dispatchNo).dispatchId ∧
      d.targetVehicleId = (r.created c store.nextId dispatchNo).targetVehicleId ∧
      d.targetDriverId = (r.created c store.nextId dispatchNo).targetDriverId := by
  refine ⟨r.row c store.nextId dispatchNo, ?_, rfl, rfl, rfl⟩
  rw [Table.find_add hadd]
  exact if_pos rfl

theorem advance_sound (hs : s.Sound) (h : step s (.advance p o) = some s') : s'.Sound := by
  obtain ⟨⟨st, store⟩, hstep, rfl⟩ := Option.map_eq_some_iff.mp h
  have hm := CallState.step_moves hstep
  refine Sound.move (hs.store hm.extends) (fun r c v rest hst => ?_) fun r result hr hresult => ?_
  · subst hst
    generalize hold : s.calls p = st₀ at hm
    cases hm with
    | quiet _ hloaded _ => cases hloaded
    | loaded hid hfind hstatus hdriver => exact ⟨hid, hfind, hstatus⟩
  · generalize hold : s.calls p = st₀ at hm
    cases hm with
    | quiet _ _ hreturned =>
      rw [hreturned] at hresult
      cases hresult
    | loaded hid hfind hstatus hdriver => cases hresult
    | replayed hr₀ hfind =>
      cases hr
      cases hresult
      exact ⟨_, hfind, rfl, rfl, rfl⟩
    | created hadd =>
      cases hr
      cases hresult
      exact created_dispatch hadd
    | reserved hfind hversion hadd =>
      cases hr
      cases hresult
      exact created_dispatch hadd

theorem attempt_quiet (r : DispatchRequest) (rest : List (Option CandidateState)) :
    (CallState.attempt r rest).loaded = none ∧ (CallState.attempt r rest).returned = none := by
  cases rest <;> exact ⟨rfl, rfl⟩

theorem interrupt_eq (h : step s (.interrupt p) = some s') :
    (∀ r result, s.calls p ≠ .created r result) ∧
      ∃ r, s' = { s with calls := update s.calls p (.raised r .databaseError) } := by
  simp only [step] at h
  generalize hp : s.calls p = st at h
  cases st <;> cases h <;> exact ⟨fun _ _ hc => (by cases hc), _, rfl⟩

/-- What a call has loaded or returned stays true of the tables. -/
theorem step_sound (hs : s.Sound) (h : step s a = some s') : s'.Sound := by
  cases a with
  | call p r =>
    simp only [step] at h
    split at h
    · cases h
      obtain ⟨hloaded, hreturned⟩ := attempt_quiet r r.attempts
      refine hs.move (fun r' c v rest hst => ?_) fun r' result _ hresult => ?_
      · have hst' : CallState.attempt r r.attempts = .committing r' (some (c, v)) rest := hst
        rw [hst'] at hloaded
        cases hloaded
      · have hresult' : (CallState.attempt r r.attempts).returned = some result := hresult
        rw [hreturned] at hresult'
        cases hresult'
    · cases h
  | advance p o => exact advance_sound hs h
  | interrupt p =>
    obtain ⟨-, r, rfl⟩ := interrupt_eq h
    exact hs.move (fun _ _ _ _ hst => by cases hst) fun _ _ _ hresult => by cases hresult
  | register t =>
    obtain ⟨store, hstore, rfl⟩ := Option.map_eq_some_iff.mp h
    obtain ⟨tasks, -, rfl⟩ := Option.map_eq_some_iff.mp hstore
    exact hs.store (.of_eq rfl rfl)
  | setStatus t status =>
    obtain ⟨store, hstore, rfl⟩ := Option.map_eq_some_iff.mp h
    obtain ⟨task, -, rfl⟩ := Option.map_eq_some_iff.mp hstore
    exact hs.store (.of_eq rfl rfl)
  | persistAudit t dispatchId auditId result reason =>
    cases h
    obtain ⟨hv, hd, -, -⟩ := s.store.persistAudit_same t dispatchId auditId result reason
    exact hs.store (.of_eq hv hd)
  | decide t decision reason auditId =>
    obtain ⟨store, hstore, rfl⟩ := Option.map_eq_some_iff.mp h
    exact hs.store (Store.decide_extends hstore)
  | operate changes =>
    obtain ⟨store, hstore, rfl⟩ := Option.map_eq_some_iff.mp h
    exact hs.store (Store.operate_ok hstore).1

theorem Initial.sound (h : s.Initial) : s.Sound := by
  refine ⟨fun p r c v rest hp => ?_, fun p r result hr => ?_⟩
  · rw [h p] at hp
    cases hp
  · rw [h p] at hr
    cases hr

theorem exec_sound {s₀ : System} {run : List Action} (h₀ : s₀.Initial)
    (hrun : exec step s₀ run = some s) : s.Sound :=
  exec_preserves (fun _ _ _ hs hstep => step_sound hs hstep) hrun h₀.sound

/-! ### Steps that create a dispatch -/

def Adds (s s' : System) (d : DispatchRow) : Prop :=
  s'.store.dispatches.rows = s.store.dispatches.rows ++ [d]

/-- The vehicle goes from `AVAILABLE` to `RESERVED`. -/
def Reserves (s s' : System) (id : String) : Prop :=
  ∃ v v', s.store.vehicles.find id = some v ∧ v.status = .available ∧
    s'.store.vehicles.find id = some v' ∧ v'.status = .reserved

/-- A call leaves the store alone, or adds a dispatch and reserves its vehicle with it. -/
theorem advance_reserves (hs : s.Sound) (h : step s (.advance p o) = some s') :
    s'.store = s.store ∨ ∃ r result d, s'.calls p = .created r result ∧ s.Adds s' d ∧
      (∀ id, d.targetVehicleId = some id → s.Reserves s' id) ∧
      ∀ id, s.Reserves s' id → d.targetVehicleId = some id := by
  obtain ⟨⟨st, store⟩, hstep, rfl⟩ := Option.map_eq_some_iff.mp h
  have hm := CallState.step_moves hstep
  have hst : update s.calls p st p = st := update_self _ _ _
  generalize hold : s.calls p = st₀ at hm
  cases hm with
  | quiet _ _ _ => exact .inl rfl
  | loaded _ _ _ _ => exact .inl rfl
  | replayed _ _ => exact .inl rfl
  | @created r rest dispatchNo dispatches hadd =>
    refine .inr ⟨r, _, _, hst, Table.rows_add hadd, fun id hid => (by cases hid),
      fun id hid => ?_⟩
    obtain ⟨v, v', hv, havailable, hv', hreserved⟩ := hid
    have hv'' : s.store.vehicles.find id = some v' := hv'
    rw [hv] at hv''
    rw [← Option.some.inj hv'', havailable] at hreserved
    cases hreserved
  | @reserved r c loaded vehicle rest dispatchNo dispatches hfind hversion hadd =>
    -- The row is as it was loaded: it has the version it was loaded with.
    obtain ⟨hc, v₁, hv₁, -, hstatus⟩ := hs.loaded p r c loaded rest hold
    rw [hfind] at hv₁
    cases hv₁
    have hid₁ : vehicle.vehicleId = loaded.vehicleId := Table.find_key hfind
    obtain ⟨written, hwritten⟩ : ∃ w : FleetVehicle,
        w = { vehicle with status := .reserved, version := vehicle.version + 1 } := ⟨_, rfl⟩
    have hid₂ : written.vehicleId = loaded.vehicleId := by
      rw [hwritten]
      exact hid₁
    have hfind₂ : s.store.vehicles.find written.vehicleId = some vehicle := by
      rw [hid₂]
      exact hfind
    rw [← hwritten]
    refine .inr ⟨r, _, _, hst, Table.rows_add hadd, fun id hid => ?_, fun id hid => ?_⟩
    · have hid' : text c.vehicleId = some id := hid
      rw [hc] at hid'
      cases hid'
      refine ⟨vehicle, written, hfind, hstatus hversion, ?_, by rw [hwritten]⟩
      show (s.store.vehicles.replace written).find loaded.vehicleId = some written
      rw [← hid₂]
      exact Table.find_replace_self hfind₂
    · obtain ⟨v, v', hv, havailable, hv', hreserved⟩ := hid
      by_cases heq : id = written.vehicleId
      · show text c.vehicleId = some id
        rw [hc, heq, hid₂]
      · have hv'' : (s.store.vehicles.replace written).find id = some v' := hv'
        rw [Table.find_replace_ne _ _ heq, hv] at hv''
        rw [← Option.some.inj hv'', havailable] at hreserved
        cases hreserved

theorem other_reserves (h : step s a = some s') (ha : ∀ p o, a ≠ .advance p o) :
    (∀ d, d ∈ s'.store.dispatches.rows → s.store.dispatches.find d.taskId ≠ none) ∧
      ∀ id, ¬ s.Reserves s' id := by
  have hsame : s'.store.vehicles = s.store.vehicles → ∀ id, ¬ s.Reserves s' id := by
    rintro heq id ⟨v, v', hv, havailable, hv', hreserved⟩
    rw [heq, hv] at hv'
    rw [← Option.some.inj hv', havailable] at hreserved
    cases hreserved
  have hrows : s'.store.dispatches = s.store.dispatches →
      ∀ d, d ∈ s'.store.dispatches.rows → s.store.dispatches.find d.taskId ≠ none := by
    intro heq d hd
    rw [heq] at hd
    rw [Table.find_of_mem hd]
    exact Option.some_ne_none d
  cases a with
  | advance p o => exact absurd rfl (ha p o)
  | call p r =>
    simp only [step] at h
    split at h
    · cases h
      exact ⟨hrows rfl, hsame rfl⟩
    · cases h
  | interrupt p =>
    obtain ⟨-, r, rfl⟩ := interrupt_eq h
    exact ⟨hrows rfl, hsame rfl⟩
  | register t =>
    obtain ⟨store, hstore, rfl⟩ := Option.map_eq_some_iff.mp h
    obtain ⟨tasks, -, rfl⟩ := Option.map_eq_some_iff.mp hstore
    exact ⟨hrows rfl, hsame rfl⟩
  | setStatus t status =>
    obtain ⟨store, hstore, rfl⟩ := Option.map_eq_some_iff.mp h
    obtain ⟨task, -, rfl⟩ := Option.map_eq_some_iff.mp hstore
    exact ⟨hrows rfl, hsame rfl⟩
  | persistAudit t dispatchId auditId result reason =>
    cases h
    obtain ⟨hv, hd, -, -⟩ := s.store.persistAudit_same t dispatchId auditId result reason
    exact ⟨hrows hd, hsame hv⟩
  | decide t decision reason auditId =>
    obtain ⟨store, hstore, rfl⟩ := Option.map_eq_some_iff.mp h
    obtain ⟨-, -, dispatch, dispatch', -, -, -, -, hdispatch, ht', -, -, -, -, hv, -, hd⟩ :=
      Store.decide_ok hstore
    refine ⟨fun d hmem hnone => ?_, hsame hv⟩
    have hfind : store.dispatches.find d.taskId = some d := Table.find_of_mem hmem
    rw [hd] at hfind
    by_cases ht : d.taskId = dispatch'.taskId
    · rw [ht, ht', hdispatch] at hnone
      cases hnone
    · rw [Table.find_replace_ne _ _ ht, hnone] at hfind
      cases hfind
  | operate changes =>
    obtain ⟨store, hstore, rfl⟩ := Option.map_eq_some_iff.mp h
    obtain ⟨-, -, hd, -, hreserved⟩ := Store.operate_ok hstore
    refine ⟨hrows hd, fun id hid => ?_⟩
    obtain ⟨v, v', hv, havailable, hv', hr'⟩ := hid
    obtain ⟨v₁, hv₁, hr₁⟩ := hreserved id v' hv' hr'
    rw [hv] at hv₁
    rw [← Option.some.inj hv₁, havailable] at hr₁
    cases hr₁

/-- A call that has returned its dispatch stays as it is. -/
theorem step_created (h : step s a = some s') {result : DispatchResult} (hp : s.calls p = .created r result) :
    s'.calls p = .created r result := by
  have hupdate : ∀ (q : ℕ) (st : CallState), q ≠ p →
      update s.calls q st p = .created r result := by
    intro q st hne
    rw [update_of_ne hne.symm]
    exact hp
  cases a with
  | call q r' =>
    simp only [step] at h
    split at h
    · rename_i hidle
      cases h
      refine hupdate q _ ?_
      rintro rfl
      rw [hp] at hidle
      cases hidle
    · cases h
  | advance q o =>
    obtain ⟨⟨st, store⟩, hstep, rfl⟩ := Option.map_eq_some_iff.mp h
    refine hupdate q st ?_
    rintro rfl
    rw [hp] at hstep
    cases hstep
  | interrupt q =>
    obtain ⟨hcreated, r', rfl⟩ := interrupt_eq h
    refine hupdate q _ ?_
    rintro rfl
    exact hcreated r result hp
  | persistAudit t dispatchId auditId result' reason =>
    cases h
    exact hp
  | register t =>
    obtain ⟨store, -, rfl⟩ := Option.map_eq_some_iff.mp h
    exact hp
  | setStatus t status =>
    obtain ⟨store, -, rfl⟩ := Option.map_eq_some_iff.mp h
    exact hp
  | decide t decision reason auditId =>
    obtain ⟨store, -, rfl⟩ := Option.map_eq_some_iff.mp h
    exact hp
  | operate changes =>
    obtain ⟨store, -, rfl⟩ := Option.map_eq_some_iff.mp h
    exact hp

def caller : Action → Option ℕ
  | .call p _ | .advance p _ | .interrupt p => some p
  | _ => none

theorem caller_unchanged (hs : s.Sound) (h : step s a = some s') (ha : caller a = some p)
    (hp : ∀ r result, s'.calls p ≠ .created r result) : s'.store = s.store := by
  cases a with
  | call q r =>
    simp only [step] at h
    split at h
    · cases h
      rfl
    · cases h
  | advance q o =>
    cases ha
    obtain hsame | ⟨r, result, d, hcreated, -⟩ := advance_reserves hs h
    · exact hsame
    · exact absurd hcreated (hp r result)
  | interrupt q =>
    obtain ⟨-, r, rfl⟩ := interrupt_eq h
    rfl
  | _ => cases ha

/-- **Exactly one dispatch and one reservation.**  Take any run, and any of its steps, from `m` to
`m'`.  A task has at most one dispatch.  A vehicle that the step takes from `AVAILABLE` to `RESERVED`
is named by the one dispatch that the step adds, and a dispatch that it adds is the only one and its
vehicle goes from `AVAILABLE` to `RESERVED` in the same step.  If the step belongs to a call that does
not end with a dispatch of its own, it leaves the tables as they are.  And calls for one task that
return name the same dispatch, vehicle and driver. -/
theorem exactly_one_dispatch {s₀ m m' s : System} {before after : List Action} {a : Action} (h₀ : s₀.Initial)
    (hbefore : exec step s₀ before = some m) (hstep : step m a = some m')
    (hafter : exec step m' after = some s) :
    (∀ d ∈ s.store.dispatches.rows, ∀ d' ∈ s.store.dispatches.rows, d.taskId = d'.taskId → d = d') ∧
    (∀ id, m.Reserves m' id → ∃ d, m.Adds m' d ∧ d.targetVehicleId = some id) ∧
    (∀ d ∈ m'.store.dispatches.rows, m.store.dispatches.find d.taskId = none →
      m.Adds m' d ∧ ∀ id, d.targetVehicleId = some id → m.Reserves m' id) ∧
    (∀ p, caller a = some p → (∀ r result, s.calls p ≠ .created r result) → m'.store = m.store) ∧
    (∀ p q r r' x x', (s.calls p).request = some r → (s.calls q).request = some r' →
      r.taskId = r'.taskId → (s.calls p).returned = some x → (s.calls q).returned = some x' →
      x.dispatchId = x'.dispatchId ∧ x.targetVehicleId = x'.targetVehicleId ∧
        x.targetDriverId = x'.targetDriverId) := by
  have hm : m.Sound := exec_sound h₀ hbefore
  have hs : s.Sound := exec_preserves (fun _ _ _ h hstep => step_sound h hstep) hafter
    (step_sound hm hstep)
  refine ⟨fun d hd d' hd' ht => ?_, fun id hid => ?_, fun d hd hnone => ?_, fun p hp hnot => ?_,
    fun p q r r' x x' hr hr' ht hx hx' => ?_⟩
  · have hfind := Table.find_of_mem hd
    rw [ht, Table.find_of_mem hd'] at hfind
    exact (Option.some.inj hfind).symm
  · by_cases ha : ∃ p o, a = .advance p o
    · obtain ⟨p, o, rfl⟩ := ha
      obtain hsame | ⟨r, result, d, -, hadds, -, hnames⟩ := advance_reserves hm hstep
      · obtain ⟨v, v', hv, havailable, hv', hreserved⟩ := hid
        rw [hsame, hv] at hv'
        rw [← Option.some.inj hv', havailable] at hreserved
        cases hreserved
      · exact ⟨d, hadds, hnames id hid⟩
    · exact absurd hid ((other_reserves hstep fun p o h => ha ⟨p, o, h⟩).2 id)
  · by_cases ha : ∃ p o, a = .advance p o
    · obtain ⟨p, o, rfl⟩ := ha
      obtain hsame | ⟨r, result, d₁, -, hadds, hreserves, -⟩ := advance_reserves hm hstep
      · rw [hsame] at hd
        rw [Table.find_of_mem hd] at hnone
        cases hnone
      · have hd' := hd
        rw [hadds] at hd'
        rcases List.mem_append.mp hd' with hold | hnew
        · rw [Table.find_of_mem hold] at hnone
          cases hnone
        · rw [List.mem_singleton.mp hnew]
          exact ⟨hadds, hreserves⟩
    · exact absurd hnone ((other_reserves hstep fun p o h => ha ⟨p, o, h⟩).1 d hd)
  · refine caller_unchanged hm hstep hp fun r result hcreated => hnot r result ?_
    exact exec_preserves (I := fun s => s.calls p = .created r result)
      (fun _ _ _ h hstep => step_created hstep h) hafter hcreated
  · obtain ⟨d, hd, hid, hvehicle, hdriver⟩ := hs.returned p r x hr hx
    obtain ⟨d', hd', hid', hvehicle', hdriver'⟩ := hs.returned q r' x' hr' hx'
    rw [ht, hd'] at hd
    cases hd
    exact ⟨hid.symm.trans hid', hvehicle.symm.trans hvehicle', hdriver.symm.trans hdriver'⟩

/-! ### Two tasks and one vehicle -/

def exampleSystem : System where
  store :=
    { tasks := ⟨[⟨"TASK-1", .processing⟩, ⟨"TASK-2", .processing⟩], by decide⟩
      vehicles := ⟨[⟨"V-1", .available, 1⟩, ⟨"V-2", .available, 1⟩], by decide⟩
      dispatches := Table.empty
      evidence := []
      audits := []
      nextId := 1 }
  calls := fun _ => .idle

def exampleCandidate (vehicleId driverId : String) : CandidateState :=
  ⟨some vehicleId, some driverId, some "AVAILABLE", some "ON_DUTY", some 100, none, 3, some "GENERAL",
    true, some []⟩

/-- A breakdown of a task, with both vehicles to replace the broken one. -/
def exampleRequest (taskId : String) : DispatchRequest :=
  ⟨taskId, 1, "R-1", some "R-2", .reroute, "breakdown", false, none, false, none, none, none,
    some "V-0", [exampleCandidate "V-1" "D-1", exampleCandidate "V-2" "D-2"], none, none, none, none⟩

/-- A commit goes through to its checks. -/
def through (dispatchNo : String) : CallOutcome := ⟨.checked, dispatchNo⟩

/-- Both tasks have loaded the first vehicle, and a second call for the first task is about to
insert its dispatch too. -/
def rivalsLoaded : List Action :=
  [.call 0 (exampleRequest "TASK-1"), .call 1 (exampleRequest "TASK-2"),
    .call 2 (exampleRequest "TASK-1")] ++
    (List.range 3).flatMap fun p => [.advance p (through ""), .advance p (through "")]

/-- The others find the vehicle or the dispatch taken. -/
def rivalsFinish : List Action :=
  [.advance 1 (through "DSP-2"), .advance 2 (through "DSP-3")] ++
    List.replicate 3 (.advance 1 (through "DSP-4")) ++ [.advance 2 (through "DSP-5")]

/-- The first commit reserves the vehicle with its dispatch, and the rival of the same task answers
with that dispatch. -/
theorem exactly_one_dispatch_rivals : ∃ m m' s x x',
    exec step exampleSystem rivalsLoaded = some m ∧
      step m (.advance 0 (through "DSP-1")) = some m' ∧ exec step m' rivalsFinish = some s ∧
      (∃ d, m.Adds m' d ∧ d.targetVehicleId = some "V-1") ∧
      (s.calls 0).returned = some x ∧ (s.calls 2).returned = some x' ∧
      x.dispatchId = x'.dispatchId := by
  have hx : ((exec step exampleSystem rivalsLoaded).bind fun m =>
      (step m (.advance 0 (through "DSP-1"))).bind fun m' =>
        (exec step m' rivalsFinish).bind fun s =>
          (s.calls 0).returned.bind fun _ => (s.calls 2).returned.map fun _ =>
            decide ((m.store.vehicles.find "V-1").map FleetVehicle.status = some .available ∧
              (m'.store.vehicles.find "V-1").map FleetVehicle.status = some .reserved ∧
              (s.calls 0).request = some (exampleRequest "TASK-1") ∧
              (s.calls 2).request = some (exampleRequest "TASK-1"))) = some true := by
    decide +kernel
  obtain ⟨m, hm, hx⟩ := Option.bind_eq_some_iff.mp hx
  obtain ⟨m', hm', hx⟩ := Option.bind_eq_some_iff.mp hx
  obtain ⟨s, hs, hx⟩ := Option.bind_eq_some_iff.mp hx
  obtain ⟨x, hx₀, hx⟩ := Option.bind_eq_some_iff.mp hx
  obtain ⟨x', hx₂, hx⟩ := Option.map_eq_some_iff.mp hx
  obtain ⟨havailable, hreserved, hr₀, hr₂⟩ := of_decide_eq_true hx
  obtain ⟨v, hv, hstatus⟩ := Option.map_eq_some_iff.mp havailable
  obtain ⟨v', hv', hstatus'⟩ := Option.map_eq_some_iff.mp hreserved
  obtain ⟨-, hnames, -, -, hagree⟩ := exactly_one_dispatch (fun _ => rfl) hm hm' hs
  exact ⟨m, m', s, x, x', hm, hm', hs, hnames "V-1" ⟨v, v', hv, hstatus, hv', hstatus'⟩, hx₀, hx₂,
    (hagree 0 2 _ _ x x' hr₀ hr₂ rfl hx₀ hx₂).1⟩

end System

end CountyFlow.Dispatch
