import CountyFlow.Lib.Runs
import CountyFlow.Dispatch.Service

/-!
# Any number of dispatches

Calls of `DispatchService.execute`, the ledger of the workers, the audits, the reviewers and the
vehicle operations share one `Store`.  Calls are interrupted between any two steps.
-/

namespace CountyFlow.Dispatch

open CountyFlow.Lib CountyFlow.Worker Function

/-! ### Vehicle operations -/

/-- `_VEHICLE_TRANSITIONS`. -/
def VehicleOperationalStatus.transitions : VehicleOperationalStatus → List VehicleOperationalStatus
  | .available => [.reserved, .dispatching, .broken]
  | .reserved => [.dispatching]
  | .dispatching => [.inTransit]
  | .inTransit => [.broken]
  | .broken => [.waitingRescue]
  | .waitingRescue => [.inRescue]
  | .inRescue => [.maintenance]
  | .maintenance => [.qaPending]
  | .qaPending => [.available, .outOfService]
  | .outOfService => []

/-- `_transition_vehicle`, once for every target; no caller has the target `RESERVED`. -/
def FleetVehicle.transition (vehicle : FleetVehicle) :
    List VehicleOperationalStatus → Option FleetVehicle
  | [] => some vehicle
  | target :: targets =>
    if target ∈ vehicle.status.transitions ∧ target ≠ .reserved then
      FleetVehicle.transition { vehicle with status := target } targets
    else none

namespace Store

/-- One transaction of the vehicle operations, as far as the vehicles go: the rows are locked, every
one is taken through its transitions, and an invalid one undoes the transaction. -/
def operate (store : Store) : List (String × List VehicleOperationalStatus) → Option Store
  | [] => some store
  | (vehicleId, targets) :: changes =>
    (store.vehicles.find vehicleId).bind fun vehicle =>
      (vehicle.transition targets).bind fun vehicle' =>
        let vehicles := store.vehicles.replace { vehicle' with version := vehicle.version + 1 }
        operate { store with vehicles := vehicles } changes

def register (store : Store) (taskId : String) : Option Store :=
  (store.tasks.add ⟨taskId, .pending⟩).map fun tasks => { store with tasks := tasks }

/-- `_set_status` of the ledger. -/
def setStatus (store : Store) (taskId : String) (status : TaskStatus) : Option Store :=
  (store.tasks.find taskId).map fun task =>
    { store with tasks := store.tasks.replace { task with status := status } }

/-- `_persist_if_possible`. -/
def persistAudit (store : Store) (taskId : String) (dispatchId auditId : ℕ) (result : AuditResult)
    (reason : String) : Store :=
  if (store.tasks.find taskId).isSome ∧ (store.audits.filter fun audit =>
      audit.taskId = taskId ∧ audit.dispatchId = dispatchId).isEmpty then
    { store with audits := store.audits ++ [⟨auditId, taskId, dispatchId, result, reason⟩] }
  else store

def decide (store : Store) (taskId : String) (decision : ReviewDecision) (reason : Option String)
    (auditId : ℕ) : Option Store :=
  match Db.reviewReason decision reason, store.tasks.find taskId, store.dispatches.find taskId with
  | .ok normalized, some task, some dispatch =>
    if task.status = .reviewRequired then
      some { store with
        tasks := store.tasks.replace { task with status := decision.status }
        dispatches := store.dispatches.replace
          { dispatch with
            status := decision.dispatchStatus
            version := dispatch.version + 1 }
        audits := store.audits ++
          [⟨auditId, taskId, dispatch.id, decision.result, normalized⟩] }
    else none
  | _, _, _ => none

end Store

/-! ### The steps of a call -/

variable {store : Store} {r : DispatchRequest}

namespace CallState

def request : CallState → Option DispatchRequest
  | .idle => none
  | .loading r _ _ | .reserving r _ _ | .committing r _ _ | .rereading r | .created r _
  | .replayed r _ | .raised r _ => some r

def loaded : CallState → Option FleetVehicle
  | .committing _ reservation _ => reservation.map Prod.snd
  | _ => none

def returned : CallState → Option DispatchResult
  | .created _ result | .replayed _ result => some result
  | _ => none

/-- **What a step of a call does to the tables.** -/
inductive Moves (store : Store) : CallState → CallState → Store → Prop
  | quiet {st st' : CallState} : st'.request = st.request → st'.loaded = none →
      st'.returned = none → Moves store st st' store
  | loaded {r : DispatchRequest} {c : CandidateState} {rest : List (Option CandidateState)}
      {vehicle : FleetVehicle} : text c.vehicleId = some vehicle.vehicleId →
      store.vehicles.find vehicle.vehicleId = some vehicle → vehicle.status = .available →
      text c.driverId ≠ none →
      Moves store (.reserving r c rest) (.committing r (some (c, vehicle)) rest) store
  | replayed {st : CallState} {r : DispatchRequest} {dispatch : DispatchRow} :
      st.request = some r → store.dispatches.find r.taskId = some dispatch →
      Moves store st (.replayed r (r.result dispatch)) store
  | created {r : DispatchRequest} {rest : List (Option CandidateState)} {dispatchNo : String}
      {dispatches : Table DispatchRow DispatchRow.taskId} :
      store.dispatches.add (r.row none store.nextId dispatchNo) = some dispatches →
      Moves store (.committing r none rest) (.created r (r.created none store.nextId dispatchNo))
        (commit store r store.vehicles dispatches)
  | reserved {r : DispatchRequest} {c : CandidateState} {loaded vehicle : FleetVehicle}
      {rest : List (Option CandidateState)} {dispatchNo : String}
      {dispatches : Table DispatchRow DispatchRow.taskId} :
      store.vehicles.find loaded.vehicleId = some vehicle → vehicle.version = loaded.version →
      store.dispatches.add (r.row (some c) store.nextId dispatchNo) = some dispatches →
      Moves store (.committing r (some (c, loaded)) rest)
        (.created r (r.created (some c) store.nextId dispatchNo))
        (commit store r (store.vehicles.replace
          { vehicle with status := .reserved, version := vehicle.version + 1 }) dispatches)

theorem Moves.attempt {st : CallState} (h : st.request = some r) (rest : List (Option CandidateState)) :
    Moves store st (attempt r rest) store := by
  cases rest with
  | nil => exact .quiet h.symm rfl rfl
  | cons candidate rest => exact .quiet h.symm rfl rfl

theorem flush_moves {reservation : Option (CandidateState × FleetVehicle)}
    {rest : List (Option CandidateState)} {dispatchNo : String} :
    Moves store (.committing r reservation rest) (flush store r reservation rest dispatchNo).1
      (flush store r reservation rest dispatchNo).2 := by
  cases reservation with
  | none =>
    simp only [flush]
    split
    · exact .quiet rfl rfl rfl
    · rename_i dispatches hadd
      exact .created hadd
  | some reservation =>
    obtain ⟨c, loaded⟩ := reservation
    simp only [flush]
    split
    · exact .attempt rfl rest
    · rename_i vehicle hfind
      split
      · exact .attempt rfl rest
      · rename_i hversion
        split
        · exact .quiet rfl rfl rfl
        · rename_i dispatches hadd
          exact .reserved hfind (not_not.mp hversion) hadd

/-- All that one statement of a dispatch call can do. -/
theorem step_moves {o : CallOutcome} {store' : Store} {st st' : CallState}
    (h : step o store st = some (st', store')) : Moves store st st' store' := by
  cases st with
  | loading r candidate rest =>
    simp only [step] at h
    split at h
    · cases h
      exact .quiet rfl rfl rfl
    · split at h
      · rename_i dispatch _ hfind
        cases h
        exact .replayed rfl hfind
      · cases h
        exact .quiet rfl rfl rfl
      · cases h
        exact .quiet rfl rfl rfl
  | reserving r c rest =>
    simp only [step] at h
    split at h
    · cases h
      exact .attempt rfl rest
    · rename_i vehicle hfind
      obtain ⟨id, hid, hfind⟩ := Option.bind_eq_some_iff.mp hfind
      obtain rfl := Table.find_key hfind
      split at h
      · cases h
        exact .attempt rfl rest
      · rename_i hok
        obtain ⟨hstatus, hdriver⟩ := not_or.mp hok
        cases h
        exact .loaded hid hfind (not_not.mp hstatus) hdriver
  | committing r reservation rest =>
    simp only [step] at h
    split at h
    · obtain ⟨rfl, rfl⟩ := Prod.mk.inj (Option.some.inj h)
      exact flush_moves
    · cases h
      exact .quiet rfl rfl rfl
    · cases h
      exact .quiet rfl rfl rfl
  | rereading r =>
    simp only [step] at h
    split at h
    · rename_i dispatch _ hfind
      cases h
      exact .replayed rfl hfind
    · cases h
      exact .quiet rfl rfl rfl
  | _ => cases h

end CallState

/-! ### The system -/

structure System where
  store : Store
  calls : ℕ → CallState

inductive Action where
  | call (p : ℕ) (r : DispatchRequest)
  | advance (p : ℕ) (o : CallOutcome)
  | interrupt (p : ℕ)
  | register (taskId : String)
  | setStatus (taskId : String) (status : TaskStatus)
  | persistAudit (taskId : String) (dispatchId auditId : ℕ) (result : AuditResult) (reason : String)
  | decide (taskId : String) (decision : ReviewDecision) (reason : Option String) (auditId : ℕ)
  | operate (changes : List (String × List VehicleOperationalStatus))
  deriving DecidableEq, Repr

namespace System

/-- The state after an action, `none` when it is not enabled. -/
def step (s : System) : Action → Option System
  | .call p r =>
    if s.calls p = .idle then
      some { s with calls := update s.calls p (.start r) }
    else none
  | .advance p o =>
    (CallState.step o s.store (s.calls p)).map fun (st, store) =>
      { store := store, calls := update s.calls p st }
  | .interrupt p =>
    match s.calls p with
    | .loading r _ _ | .reserving r _ _ | .committing r _ _ | .rereading r =>
      some { s with calls := update s.calls p (.raised r .databaseError) }
    | _ => none
  | .register taskId => (s.store.register taskId).map fun store => { s with store := store }
  | .setStatus taskId status =>
    (s.store.setStatus taskId status).map fun store => { s with store := store }
  | .persistAudit taskId dispatchId auditId result reason =>
    some { s with store := s.store.persistAudit taskId dispatchId auditId result reason }
  | .decide taskId decision reason auditId =>
    (s.store.decide taskId decision reason auditId).map fun store => { s with store := store }
  | .operate changes => (s.store.operate changes).map fun store => { s with store := store }

end System

end CountyFlow.Dispatch
