import CountyFlow.Dispatch.Holding
import CountyFlow.Graph.Weight
import CountyFlow.Worker.Process

/-!
# Reviews and their proposals

A reviewer decides about the `Dispatch` row of a task: `ReviewDecisionService.decide` raises
`ReviewDispatchMissing` for a task without one.  The worker records `REVIEW_REQUIRED` for whatever the
graph ends with, and the graph ends with a review also when `dispatch_node` has met a
`VehicleReservationConflict` and has left no row behind.

The workers are followed as far as the ledger and the tables of the dispatcher go.  A worker runs the
graph node by node, may save a checkpoint behind every node and may start from a saved one; workers
crash anywhere, and nothing keeps two of them from the same task.
-/

/-! ### The tables -/

namespace CountyFlow.Dispatch.Store

open CountyFlow.Lib CountyFlow.Worker

/-- The task has a dispatch. -/
def Proposed (store : Store) (t : String) : Prop := ∃ dispatch, store.dispatches.find t = some dispatch

variable {store : Store} {t : String}

theorem Proposed.extends {store' : Store} (h : store.Proposed t)
    (hext : store.Extends store') : store'.Proposed t := by
  obtain ⟨d, hd⟩ := h
  obtain ⟨d', hd', -⟩ := hext.dispatch t d hd
  exact ⟨d', hd'⟩

/-- `reconcile_existing_execution`: the result of an audit of the task's dispatch. -/
def reconcile (store : Store) (t : String) (pick : ℕ) : Option AuditResult :=
  (store.tasks.find t).bind fun _ => (store.dispatches.find t).bind fun dispatch =>
    let rows := store.audits.filter fun audit =>
      audit.taskId = t ∧ audit.dispatchId = dispatch.id
    rows[pick % rows.length]?.map AuditRecord.result

theorem proposed_of_reconcile {pick : ℕ} {result : AuditResult}
    (h : store.reconcile t pick = some result) : store.Proposed t := by
  obtain ⟨task, -, h⟩ := Option.bind_eq_some_iff.mp h
  obtain ⟨dispatch, hd, -⟩ := Option.bind_eq_some_iff.mp h
  exact ⟨dispatch, hd⟩

/-- `decide` with its exceptions. -/
def review (store : Store) (t : String) (decision : ReviewDecision) (reason : Option String)
    (auditId : ℕ) : Except ServiceError Store :=
  match Db.reviewReason decision reason with
  | .error e => .error e
  | .ok normalized =>
    match store.tasks.find t with
    | none => .error .reviewNotFound
    | some task =>
      if task.status ≠ .reviewRequired then .error .reviewAlreadyDecided
      else match store.dispatches.find t with
        | none => .error .reviewDispatchMissing
        | some dispatch => .ok
            { store with
              tasks := store.tasks.replace { task with status := decision.status }
              dispatches := store.dispatches.replace
                { dispatch with
                  status := decision.dispatchStatus
                  version := dispatch.version + 1 }
              audits := store.audits ++
                [⟨auditId, t, dispatch.id, decision.result, normalized⟩] }

theorem review_missing {decision : ReviewDecision} {reason : Option String} {auditId : ℕ}
    (h : store.review t decision reason auditId = .error .reviewDispatchMissing) :
    store.dispatches.find t = none := by
  unfold review at h
  split at h
  · rename_i e hreason
    unfold Db.reviewReason at hreason
    dsimp only at hreason
    obtain rfl := Except.error.inj h
    split at hreason
    · cases hreason
    · split at hreason
      · cases hreason
      · split at hreason <;> cases hreason
  · split at h
    · cases h
    · split at h
      · cases h
      · split at h
        · assumption
        · cases h

theorem review_approves (hstatus : store.taskStatus t = some .reviewRequired) (hp : store.Proposed t)
    (auditId : ℕ) :
    ∃ store', store.review t .approve none auditId = .ok store' ∧
      store'.taskStatus t = some .approved := by
  obtain ⟨task, htask, hreview⟩ := Option.map_eq_some_iff.mp hstatus
  obtain ⟨dispatch, hdispatch⟩ := hp
  have hreason : Db.reviewReason .approve none = .ok "人工复核已批准。" := by
    decide +kernel
  have hid : task.taskId = t := Table.find_key htask
  unfold review
  rw [hreason, htask, hdispatch]
  dsimp only
  rw [if_neg (not_not.mpr hreview)]
  refine ⟨_, rfl, ?_⟩
  show ((store.tasks.replace { task with status := .approved }).find t).map _ = _
  rw [Table.find_replace, if_pos hid.symm, htask]
  rfl

end CountyFlow.Dispatch.Store

/-! ### A worker -/

namespace CountyFlow.Graph

open CountyFlow.Lib CountyFlow.Dispatch CountyFlow.Worker

def ErrorCode.text : ErrorCode → String
  | .intakeValidationError => "INTAKE_VALIDATION_ERROR"
  | .roadLocationUnresolved => "ROAD_LOCATION_UNRESOLVED"
  | .vehicleAssignmentMismatch => "VEHICLE_ASSIGNMENT_MISMATCH"
  | .memoryRecallError => "MEMORY_RECALL_ERROR"
  | .capacityEvaluationError => "CAPACITY_EVALUATION_ERROR"
  | .noReplacementVehicle => "NO_REPLACEMENT_VEHICLE"
  | .noReachableRoute => "NO_REACHABLE_ROUTE"
  | .dispatchConflict => "DISPATCH_CONFLICT"
  | .dispatchVersionConflict => "DISPATCH_VERSION_CONFLICT"
  | .vehicleReservationConflict => "VEHICLE_RESERVATION_CONFLICT"
  | .auditPersistenceError => "AUDIT_PERSISTENCE_ERROR"

/-- What the worker reads of the last state of the graph. -/
def GraphState.final (s : GraphState) : FinalState where
  errorCode := s.errorCode.map ErrorCode.text
  requiresManualReview := decide (s.requiresManualReview = some true)
  auditStatus := s.auditReport.map fun report => report.auditStatus.status.text

/-- A saved state of the graph, with the nodes that are still to come. -/
structure Checkpoint where
  state : GraphState
  rest : List Node

/-- A point of `process_message` between two calls that matter to the ledger or to the tables of the
dispatcher. -/
inductive Handling where
  | idle
  | beginning (m : DispatchTaskMessage)
  | reconciling (m : DispatchTaskMessage)
  | starting (m : DispatchTaskMessage)
  | ready (m : DispatchTaskMessage)
  | running (m : DispatchTaskMessage) (s : GraphState) (rest : List Node)
  | executing (m : DispatchTaskMessage) (s : GraphState) (call : CallState) (rest : List Node)
  | recording (m : DispatchTaskMessage) (status : TaskStatus)
  | gone

/-- What the world contributes to a step: the answers of the services, what the dispatcher meets at a
commit, which audit row a query answers with, whether an audit row can be written and its id, and which
checkpoint the thread stands at, if it has one. -/
structure Contribution where
  services : Services
  call : CallOutcome
  pick : ℕ
  persists : Bool
  auditId : ℕ
  checkpoint : Option ℕ

namespace Handling

/-- `audit_node` with the row that it writes. -/
def audited (store : Store) (s : GraphState) (persists : Bool) (auditId : ℕ) : Store :=
  match s.dispatchResult with
  | some dispatch =>
    if persists then
      store.persistAudit s.taskId dispatch.dispatchId auditId s.evaluate.status s.evaluate.reason
    else store
  | none => store

/-- `dispatch_node` behind its call of `execute`. -/
def dispatched (m : DispatchTaskMessage) (s : GraphState) (rest : List Node) : CallState → Handling
  | .created _ result | .replayed _ result => .running m (s.dispatched result) rest
  | .raised _ .vehicleReservationConflict => .running m s.notReserved rest
  | _ => .gone

def node (o : Contribution) (store : Store) (m : DispatchTaskMessage) (s : GraphState) :
    List Node → Handling × Store
  | [] =>
    match (terminalState s.final).1 with
    | some status => (.recording m status, store)
    | none => (.gone, store)
  | .dispatch :: rest => (.executing m s (.start s.dispatchRequest) rest, store)
  | .audit :: rest =>
    (.running m (auditNode o.persists s) rest, audited store s o.persists o.auditId)
  | n :: rest =>
    match o.services.node s n with
    | .ok s' => (.running m s' rest, store)
    | .error _ => (.gone, store)

/-- One call of a worker; `none` when it is over. -/
def step (o : Contribution) (checkpoints : String → List Checkpoint) (store : Store) :
    Handling → Option (Handling × Store)
  | .idle | .gone => none
  | .beginning m =>
    match store.tasks.find m.taskId with
    | none => (store.register m.taskId).map fun store' => (.starting m, store')
    | some task => some (if task.status.terminal then .gone else .reconciling m, store)
  | .reconciling m =>
    match store.reconcile m.taskId o.pick with
    | some .approved => some (.recording m .approved, store)
    | some .reviewRequired => some (.recording m .reviewRequired, store)
    | _ => some (.ready m, store)
  | .starting m => (store.setStatus m.taskId .processing).map fun store' => (.ready m, store')
  | .ready m =>
    match o.checkpoint.bind fun index => (checkpoints m.taskId)[index]? with
    | none => some (.running m (taskMessageToGraphInput m) nodeOrder, store)
    | some c => some (.running m c.state c.rest, store)
  | .running m s rest => some (node o store m s rest)
  | .executing m s call rest =>
    match call.step o.call store with
    | some (call', store') => some (.executing m s call' rest, store')
    | none => some (dispatched m s rest call, store)
  | .recording m status => (store.setStatus m.taskId status).map fun store' => (.gone, store')

end Handling

/-! ### The system -/

/-- The tables, the checkpoints of every task, and every worker. -/
structure System where
  store : Store
  checkpoints : String → List Checkpoint
  workers : ℕ → Handling

inductive Action where
  | register (taskId : String)
  | deliver (p : ℕ) (m : DispatchTaskMessage)
  | advance (p : ℕ) (o : Contribution)
  | save (p : ℕ)
  | crash (p : ℕ)
  | deadLetter (taskId : String)
  | decide (taskId : String) (decision : ReviewDecision) (reason : Option String) (auditId : ℕ)
  | operate (changes : List (String × List VehicleOperationalStatus))

namespace System

/-- The state after an action, `none` when it is not enabled. -/
def step (s : System) : Action → Option System
  | .register taskId => (s.store.register taskId).map fun store => { s with store := store }
  | .deliver p m =>
    match s.workers p with
    | .idle => some { s with workers := Function.update s.workers p (.beginning m) }
    | _ => none
  | .advance p o =>
    (Handling.step o s.checkpoints s.store (s.workers p)).map fun (st, store) =>
      { s with store := store, workers := Function.update s.workers p st }
  | .save p =>
    match s.workers p with
    | .running m state rest =>
      let saved : List Checkpoint := ⟨state, rest⟩ :: s.checkpoints m.taskId
      some { s with checkpoints := Function.update s.checkpoints m.taskId saved }
    | _ => none
  | .crash p => some { s with workers := Function.update s.workers p .gone }
  | .deadLetter taskId =>
    (s.store.setStatus taskId .dlq).map fun store => { s with store := store }
  | .decide taskId decision reason auditId =>
    (s.store.decide taskId decision reason auditId).map fun store => { s with store := store }
  | .operate changes => (s.store.operate changes).map fun store => { s with store := store }

/-- Where runs begin: nobody works, nothing is saved, and every review has its proposal. -/
structure Initial (s : System) : Prop where
  idle : ∀ p, s.workers p = .idle
  unsaved : ∀ t, s.checkpoints t = []
  proposed : ∀ t, s.store.taskStatus t = some .reviewRequired → s.store.Proposed t

end System

/-! ### The nodes and the task -/

theorem intakeNode_taskId (sandtable : Option Sandtable) (captured : Option Road.RoadNetworkSnapshot)
    (s : GraphState) : (intakeNode sandtable captured s).taskId = s.taskId := by
  unfold intakeNode
  dsimp only
  repeat' split
  all_goals rfl

theorem capacityNode_taskId {service : Option CapacityService} {fleet : Option FleetAllocationService}
    {restores : Bool} {fuel : ℕ} {s s' : GraphState}
    (h : capacityNode service fleet restores fuel s = .ok s') : s'.taskId = s.taskId := by
  unfold capacityNode at h
  repeat' split at h
  all_goals first
    | (obtain rfl := Except.ok.inj h; rfl)
    | cases h

theorem auditNode_taskId (persists : Bool) (s : GraphState) : (auditNode persists s).taskId = s.taskId := by
  unfold auditNode
  split <;> rfl

theorem node_taskId {v : Services} {s s' : GraphState} {n : Node} (h : v.node s n = .ok s')
    (hdispatch : n ≠ .dispatch) : s'.taskId = s.taskId := by
  cases n with
  | intake =>
    cases h
    exact intakeNode_taskId _ _ s
  | entityMemory =>
    cases h
    unfold entityMemoryNode
    split <;> rfl
  | graphMemory =>
    cases h
    unfold graphMemoryNode
    split <;> rfl
  | environment =>
    cases h
    unfold environmentNode
    split <;> rfl
  | capacity => exact capacityNode_taskId h
  | routing =>
    have h' : routingNode v.routing v.snapshots.isSome v.fuel s = .ok s' := h
    cases hr : v.routing with
    | none =>
      rw [hr] at h'
      cases h'
      rfl
    | some r =>
      rw [hr] at h'
      obtain ⟨result, -, hleaves⟩ := routing_leaves h'
      exact hleaves.taskId
  | dispatch => exact absurd rfl hdispatch
  | audit =>
    cases h
    cases v.audit with
    | none => rfl
    | some persists => exact auditNode_taskId persists s

/-! ### What the workers count on -/

/-- The last vehicle a call tries is there and `AVAILABLE`, with a driver, when the call loads it, and
has not changed when the call commits. -/
def Attainable (store : Store) : CallState → Prop
  | .reserving _ c [] =>
    (∃ vehicle, (text c.vehicleId).bind store.vehicles.find = some vehicle ∧
      vehicle.status = .available) ∧ text c.driverId ≠ none
  | .committing _ (some (_, loaded)) [] =>
    ∃ vehicle, store.vehicles.find loaded.vehicleId = some vehicle ∧
      vehicle.version = loaded.version
  | _ => True

/-- The call has ended in a way that lets the graph go on. -/
def Ended : CallState → Prop
  | .created _ _ | .replayed _ _ | .raised _ .vehicleReservationConflict => True
  | _ => False

namespace Handling

/-- Behind `dispatch_node` there is a proposal, and a review is recorded only with one. -/
def Backed (store : Store) : Handling → Prop
  | .running m s rest => s.taskId = m.taskId ∧ (.dispatch ∉ rest → store.Proposed m.taskId)
  | .executing m s call _ => s.taskId = m.taskId ∧ call.request = some s.dispatchRequest ∧
      (Ended call → store.Proposed m.taskId)
  | .recording m status => status = .reviewRequired → store.Proposed m.taskId
  | _ => True

theorem Backed.extends {store store' : Store} {st : Handling} (h : st.Backed store)
    (hext : store.Extends store') : st.Backed store' := by
  cases st with
  | running m s rest => exact ⟨h.1, fun hrest => (h.2 hrest).extends hext⟩
  | executing m s call rest => exact ⟨h.1, h.2.1, fun hended => (h.2.2 hended).extends hext⟩
  | recording m status => exact fun hstatus => (h hstatus).extends hext
  | _ => trivial

end Handling

theorem not_ended_start (r : DispatchRequest) : ¬ Ended (.start r) := by
  unfold CallState.start DispatchRequest.attempts
  split
  · exact id
  · rename_i candidates hne
    cases hr : r.rankedEligibleCandidates with
    | nil => exact absurd hr hne
    | cons candidate candidates => exact id

variable {r : DispatchRequest} {rest : List (Option CandidateState)}

theorem ended_attempt (h : Ended (CallState.attempt r rest)) : rest = [] := by
  cases rest with
  | nil => rfl
  | cons candidate rest => exact absurd h id

variable {store : Store}

theorem proposed_of_add {row : DispatchRow} {dispatches : Table DispatchRow DispatchRow.taskId}
    (h : store.dispatches.add row = some dispatches) : ∃ d, dispatches.find row.taskId = some d := by
  rw [Table.find_add h, if_pos rfl]
  exact ⟨row, rfl⟩

theorem flush_proposed {reservation : Option (CandidateState × FleetVehicle)} {dispatchNo : String}
    (ha : Attainable store (.committing r reservation rest) ∨ store.Proposed r.taskId)
    (hend : Ended (CallState.flush store r reservation rest dispatchNo).1) :
    (CallState.flush store r reservation rest dispatchNo).2.Proposed r.taskId := by
  cases reservation with
  | none =>
    unfold CallState.flush at hend ⊢
    dsimp only at hend ⊢
    split
    · rename_i hadd
      rw [hadd] at hend
      exact absurd hend id
    · rename_i dispatches hadd
      exact proposed_of_add hadd
  | some pair =>
    obtain ⟨c, loaded⟩ := pair
    unfold CallState.flush at hend ⊢
    dsimp only at hend ⊢
    cases hfind : store.vehicles.find loaded.vehicleId with
    | none =>
      rw [hfind] at hend
      obtain rfl := ended_attempt hend
      rcases ha with ⟨vehicle, hvehicle, -⟩ | hp
      · rw [hfind] at hvehicle
        cases hvehicle
      · exact hp
    | some vehicle =>
      rw [hfind] at hend
      dsimp only at hend ⊢
      by_cases hversion : vehicle.version = loaded.version
      · rw [if_neg (not_not.mpr hversion)] at hend ⊢
        cases hadd : store.dispatches.add (r.row (Option.map Prod.fst (some (c, loaded)))
            store.nextId dispatchNo) with
        | none =>
          rw [hadd] at hend
          exact absurd hend id
        | some dispatches => exact proposed_of_add hadd
      · rw [if_pos hversion] at hend ⊢
        obtain rfl := ended_attempt hend
        rcases ha with ⟨vehicle', hvehicle', hsame⟩ | hp
        · rw [hfind] at hvehicle'
          cases hvehicle'
          exact absurd hsame hversion
        · exact hp

variable {call call' : CallState}

/-- A call that has ended leaves its task with a proposal. -/
theorem call_proposed {o : CallOutcome} {store' : Store} (h : call.step o store = some (call', store'))
    (hr : call.request = some r) (ha : Attainable store call ∨ store.Proposed r.taskId) (hend : Ended call') :
    store'.Proposed r.taskId := by
  cases call with
  | loading r' candidate rest =>
    cases hr
    simp only [CallState.step] at h
    split at h
    · cases h
      exact absurd hend id
    · split at h
      · rename_i dispatch hd
        cases h
        exact ⟨dispatch, hd⟩
      · cases h
        exact absurd hend id
      · cases h
        exact absurd hend id
  | reserving r' c rest =>
    cases hr
    simp only [CallState.step] at h
    cases hfind : (text c.vehicleId).bind store.vehicles.find with
    | none =>
      rw [hfind] at h
      cases h
      obtain rfl := ended_attempt hend
      rcases ha with ⟨⟨vehicle, hvehicle, -⟩, -⟩ | hp
      · rw [hfind] at hvehicle
        cases hvehicle
      · exact hp
    | some vehicle =>
      rw [hfind] at h
      dsimp only at h
      split at h
      · rename_i hnot
        cases h
        obtain rfl := ended_attempt hend
        rcases ha with ⟨⟨vehicle', hvehicle', havailable⟩, hdriver⟩ | hp
        · rw [hfind] at hvehicle'
          cases hvehicle'
          rcases hnot with hnot | hnot
          · exact absurd havailable hnot
          · exact absurd hnot hdriver
        · exact hp
      · cases h
        exact absurd hend id
  | committing r' reservation rest =>
    cases hr
    simp only [CallState.step] at h
    split at h
    · obtain ⟨rfl, rfl⟩ := Prod.mk.inj (Option.some.inj h)
      exact flush_proposed ha hend
    · cases h
      exact absurd hend id
    · cases h
      exact absurd hend id
  | rereading r' =>
    cases hr
    simp only [CallState.step] at h
    split at h
    · rename_i dispatch _ hd
      cases h
      exact ⟨dispatch, hd⟩
    · cases h
      exact absurd hend id
  | _ => cases h

/-! ### One step -/

/-- The tables go on: the proposals stay, and a task comes to wait for a review only with one. -/
structure Continues (store store' : Store) : Prop where
  extends_ : store.Extends store'
  reviews : ∀ t, store'.taskStatus t = some .reviewRequired →
    store.taskStatus t = some .reviewRequired ∨ store'.Proposed t

theorem Continues.of_tasks {store' : Store} (hext : store.Extends store')
    (htasks : store'.tasks = store.tasks) : Continues store store' := by
  refine ⟨hext, fun t ht => Or.inl ?_⟩
  unfold Store.taskStatus at ht ⊢
  rw [← htasks]
  exact ht

theorem Continues.refl (store : Store) : Continues store store :=
  .of_tasks (.of_eq rfl rfl) rfl

theorem register_continues {store' : Store} {t : String} (h : store.register t = some store') :
    Continues store store' := by
  obtain ⟨tasks, hadd, rfl⟩ := Option.map_eq_some_iff.mp h
  refine ⟨.of_eq rfl rfl, fun t' ht' => Or.inl ?_⟩
  have hfind : (tasks.find t').map TaskRow.status = some .reviewRequired := ht'
  rw [Table.find_add hadd] at hfind
  split at hfind
  · cases hfind
  · exact hfind

theorem setStatus_continues {store' : Store} {t : String} {status : TaskStatus}
    (h : store.setStatus t status = some store') (hreview : status = .reviewRequired → store.Proposed t) :
    Continues store store' := by
  obtain ⟨task, hfind, rfl⟩ := Option.map_eq_some_iff.mp h
  have hid : task.taskId = t := Table.find_key hfind
  refine ⟨.of_eq rfl rfl, fun t' ht' => ?_⟩
  have hold : store.tasks.find { task with status := status }.taskId = some task := by
    rw [← hid] at hfind
    exact hfind
  rw [Store.taskStatus_replace hold] at ht'
  split at ht'
  · rename_i hsame
    refine .inr ?_
    rw [hsame.trans hid]
    exact hreview (Option.some.inj ht')
  · exact .inl ht'

theorem audited_continues (store : Store) (s : GraphState) (persists : Bool) (auditId : ℕ) :
    Continues store (Handling.audited store s persists auditId) := by
  unfold Handling.audited
  split
  · split
    · obtain ⟨hv, hd, -, ht⟩ := Store.persistAudit_same store s.taskId _ auditId s.evaluate.status
        s.evaluate.reason
      exact .of_tasks (.of_eq hv hd) ht
    · exact .refl store
  · exact .refl store

/-- What is saved of a task is a state of it, with a proposal behind `dispatch_node`. -/
def Kept (store : Store) (checkpoints : String → List Checkpoint) : Prop :=
  ∀ t, ∀ c ∈ checkpoints t, c.state.taskId = t ∧ (.dispatch ∉ c.rest → store.Proposed t)

theorem call_tasks {o : CallOutcome} {store' : Store}
    (h : call.step o store = some (call', store')) : store'.tasks = store.tasks := by
  cases CallState.step_moves h with
  | created hadd => rfl
  | reserved hfind hversion hadd => rfl
  | _ => rfl

namespace Handling

variable {o : Contribution} {store store' : Store} {m : DispatchTaskMessage} {s : GraphState}

theorem node_backed {rest : List Node} (hb : (running m s rest).Backed store) :
    (node o store m s rest).1.Backed (node o store m s rest).2 ∧
      Continues store (node o store m s rest).2 := by
  obtain ⟨htask, hrest⟩ := hb
  cases rest with
  | nil =>
    unfold node
    cases (terminalState s.final).1 with
    | none => exact ⟨trivial, .refl store⟩
    | some status => exact ⟨fun _ => hrest (List.not_mem_nil), .refl store⟩
  | cons n rest =>
    have hother : ∀ s' : GraphState, n ≠ .dispatch → s'.taskId = s.taskId →
        (running m s' rest).Backed store := by
      intro s' hn hs'
      refine ⟨hs'.trans htask, fun hnot => hrest ?_⟩
      rw [List.mem_cons]
      rintro (heq | hmem)
      · exact hn heq.symm
      · exact hnot hmem
    cases n with
    | dispatch =>
      exact ⟨⟨htask, System.request_attempt _ _, fun hended => absurd hended (not_ended_start _)⟩,
        .refl store⟩
    | audit =>
      have hc := audited_continues store s o.persists o.auditId
      exact ⟨(hother _ (by decide) (auditNode_taskId o.persists s)).extends hc.extends_, hc⟩
    | _ =>
      simp only [node]
      split
      · rename_i s' hs'
        exact ⟨hother s' (by decide) (node_taskId hs' (by decide)), .refl store⟩
      · exact ⟨trivial, .refl store⟩

/-- A task in the hands of a worker stays backed, and the store only continues. -/
theorem step_backed {checkpoints : String → List Checkpoint} {st st' : Handling}
    (h : step o checkpoints store st = some (st', store')) (hb : st.Backed store)
    (hkept : Kept store checkpoints)
    (ha : ∀ m s call rest, st = .executing m s call rest →
      Attainable store call ∨ store.Proposed m.taskId) :
    st'.Backed store' ∧ Continues store store' := by
  cases st with
  | idle => cases h
  | gone => cases h
  | beginning m =>
    simp only [step] at h
    split at h
    · obtain ⟨store₁, hreg, heq⟩ := Option.map_eq_some_iff.mp h
      obtain ⟨rfl, rfl⟩ := Prod.mk.inj heq
      exact ⟨trivial, register_continues hreg⟩
    · cases h
      refine ⟨?_, .refl store⟩
      split <;> trivial
  | reconciling m =>
    simp only [step] at h
    split at h
    · cases h
      exact ⟨(fun h => by cases h), .refl store⟩
    · rename_i hresult
      cases h
      exact ⟨fun _ => Store.proposed_of_reconcile hresult, .refl store⟩
    · cases h
      exact ⟨trivial, .refl store⟩
  | starting m =>
    obtain ⟨store₁, hset, heq⟩ := Option.map_eq_some_iff.mp h
    obtain ⟨rfl, rfl⟩ := Prod.mk.inj heq
    exact ⟨trivial, setStatus_continues hset fun h => by cases h⟩
  | ready m =>
    simp only [step] at h
    split at h
    · cases h
      exact ⟨⟨rfl, fun hnot => absurd (by decide) hnot⟩, .refl store⟩
    · rename_i c hc
      cases h
      obtain ⟨index, -, hget⟩ := Option.bind_eq_some_iff.mp hc
      exact ⟨hkept m.taskId c (List.mem_of_getElem? hget), .refl store⟩
  | running m s rest =>
    obtain ⟨rfl, rfl⟩ := Prod.mk.inj (Option.some.inj h)
    exact node_backed hb
  | executing m s call rest =>
    obtain ⟨htask, hrequest, hended⟩ := hb
    simp only [step] at h
    split at h
    · rename_i call' store₁ hcall
      cases h
      refine ⟨⟨htask, ?_, fun hend => ?_⟩, ?_⟩
      · rw [System.request_of_step hcall]
        exact hrequest
      · have hp := call_proposed hcall hrequest
          (by rw [show s.dispatchRequest.taskId = m.taskId from htask]; exact ha m s call rest rfl) hend
        rw [show s.dispatchRequest.taskId = m.taskId from htask] at hp
        exact hp
      · exact .of_tasks (CallState.step_moves hcall).extends (call_tasks hcall)
    · cases h
      refine ⟨?_, .refl store⟩
      unfold dispatched
      split
      · exact ⟨htask, fun _ => hended trivial⟩
      · exact ⟨htask, fun _ => hended trivial⟩
      · exact ⟨htask, fun _ => hended trivial⟩
      · trivial
  | recording m status =>
    obtain ⟨store₁, hset, heq⟩ := Option.map_eq_some_iff.mp h
    obtain ⟨rfl, rfl⟩ := Prod.mk.inj heq
    exact ⟨trivial, setStatus_continues hset hb⟩

end Handling

namespace System

/-- `execute` does not run out of vehicles for a task without a dispatch. -/
def Attains (s : System) : Action → Prop
  | .advance p _ => ∀ m state call rest, s.workers p = .executing m state call rest →
      Attainable s.store call ∨ s.store.Proposed m.taskId
  | _ => True

/-- Every review has its proposal, and everybody counts on one rightly. -/
structure Sound (s : System) : Prop where
  reviews : ∀ t, s.store.taskStatus t = some .reviewRequired → s.store.Proposed t
  workers : ∀ p, (s.workers p).Backed s.store
  kept : Kept s.store s.checkpoints

variable {s : System}

theorem Sound.continues (hs : s.Sound) (hc : Continues s.store store) :
    ({ s with store := store } : System).Sound := by
  refine ⟨fun t ht => ?_, fun p => (hs.workers p).extends hc.extends_, fun t c hmem => ?_⟩
  · rcases hc.reviews t ht with hbefore | hp
    · exact (hs.reviews t hbefore).extends hc.extends_
    · exact hp
  · obtain ⟨htask, hrest⟩ := hs.kept t c hmem
    exact ⟨htask, fun hnot => (hrest hnot).extends hc.extends_⟩

theorem Sound.worker {p : ℕ} {st : Handling} (hs : s.Sound) (hst : st.Backed s.store) :
    ({ s with workers := Function.update s.workers p st } : System).Sound := by
  refine ⟨hs.reviews, fun q => ?_, hs.kept⟩
  show (Function.update s.workers p st q).Backed s.store
  rw [Function.update_apply]
  split
  · exact hst
  · exact hs.workers q

/-- An attainable step keeps every review behind its proposal. -/
theorem step_sound {s' : System} {a : Action} (hs : s.Sound) (hok : s.Attains a)
    (h : step s a = some s') : s'.Sound := by
  cases a with
  | register t =>
    obtain ⟨store, hreg, rfl⟩ := Option.map_eq_some_iff.mp h
    exact hs.continues (register_continues hreg)
  | deliver p m =>
    simp only [step] at h
    split at h
    · cases h
      exact hs.worker trivial
    · cases h
  | advance p o =>
    obtain ⟨⟨st, store⟩, hstep, rfl⟩ := Option.map_eq_some_iff.mp h
    obtain ⟨hst, hc⟩ := Handling.step_backed hstep (hs.workers p) hs.kept hok
    exact (hs.continues hc).worker (p := p) hst
  | save p =>
    simp only [step] at h
    split at h
    · rename_i m state rest hst
      cases h
      have hb := hs.workers p
      rw [hst] at hb
      refine ⟨hs.reviews, hs.workers, fun t c hmem => ?_⟩
      have hmem' : c ∈ Function.update s.checkpoints m.taskId
          (⟨state, rest⟩ :: s.checkpoints m.taskId) t := hmem
      by_cases ht : t = m.taskId
      · subst ht
        rw [Function.update_self] at hmem'
        rcases List.mem_cons.mp hmem' with rfl | hold
        · exact hb
        · exact hs.kept m.taskId c hold
      · rw [Function.update_of_ne ht] at hmem'
        exact hs.kept t c hmem'
    · cases h
  | crash p =>
    cases h
    exact hs.worker trivial
  | deadLetter t =>
    obtain ⟨store, hset, rfl⟩ := Option.map_eq_some_iff.mp h
    exact hs.continues (setStatus_continues hset nofun)
  | decide t decision reason auditId =>
    obtain ⟨store, hdecide, rfl⟩ := Option.map_eq_some_iff.mp h
    refine hs.continues ⟨Store.decide_extends hdecide, fun t' ht' => ?_⟩
    obtain ⟨task, task', -, -, hfind, hreview, hid, -, -, -, -, -, -, -, -, htasks, -⟩ :=
      Store.decide_ok hdecide
    by_cases ht : t' = t
    · subst ht
      refine .inl ?_
      unfold Store.taskStatus
      rw [hfind, ← hreview]
      rfl
    · refine .inl ?_
      unfold Store.taskStatus at ht' ⊢
      rw [htasks, Table.find_replace_ne _ _ fun heq => ht (heq.trans hid)] at ht'
      exact ht'
  | operate changes =>
    obtain ⟨store, hoperate, rfl⟩ := Option.map_eq_some_iff.mp h
    obtain ⟨hext, htasks, -⟩ := Store.operate_ok hoperate
    exact hs.continues (.of_tasks hext htasks)

theorem Initial.sound (h : s.Initial) : s.Sound := by
  refine ⟨h.proposed, fun p => ?_, fun t c hmem => ?_⟩
  · rw [h.idle p]
    trivial
  · rw [h.unsaved t] at hmem
    cases hmem

/-- **Every review can be decided.**  In every run in which `execute` does not run out of vehicles, a
task that waits for a review has its dispatch, no decision about it raises `ReviewDispatchMissing`,
and an approval closes it. -/
theorem review_has_proposal {s₀ s : System} {run : List Action} {t : String} (h₀ : s₀.Initial)
    (hok : Meets step Attains s₀ run) (hrun : exec step s₀ run = some s)
    (ht : s.store.taskStatus t = some .reviewRequired) :
    s.store.Proposed t ∧
      (∀ decision reason auditId,
        s.store.review t decision reason auditId ≠ .error .reviewDispatchMissing) ∧
      ∀ auditId, ∃ store, s.store.review t .approve none auditId = .ok store ∧
        store.taskStatus t = some .approved := by
  have hs : s.Sound :=
    exec_invariant (fun (s₁ : System) a s₂ hs hk hstep => step_sound hs hk hstep) hok hrun h₀.sound
  have hp := hs.reviews t ht
  refine ⟨hp, fun decision reason auditId hmissing => ?_, Store.review_approves ht hp⟩
  obtain ⟨dispatch, hd⟩ := hp
  rw [Store.review_missing hmissing] at hd
  cases hd

/-! ### A review, with and without a proposal -/

/-- The message about a vehicle that has broken down. -/
def brokenMessage : DispatchTaskMessage where
  taskId := "T-1"
  orderId := 7
  payload := ⟨"D-002", "V-002", "xinping-road", "VEHICLE_BREAKDOWN", "发动机故障", .broken, none, none⟩
  taskId_ne := by decide
  vehicleId_ne := by decide
  anomalyType_ne := by decide
  incidentNodeId_ne := by decide
  affectedEdgeId_ne := by decide

/-- Nothing is registered, and both vehicles of the fleet are reserved by others. -/
def reservedFleet : System where
  store :=
    { tasks := .empty
      vehicles := ⟨[⟨"V-005", .reserved, 2⟩, ⟨"V-006", .reserved, 2⟩], by simp⟩
      dispatches := .empty
      evidence := []
      audits := []
      nextId := 1 }
  checkpoints := fun _ => []
  workers := fun _ => .idle

theorem reservedFleet_initial : reservedFleet.Initial :=
  ⟨fun _ => rfl, fun _ => rfl, fun _ h => (by cases h)⟩

/-- Everything is written, and the thread has no checkpoint. -/
def plainly (services : Services) : Contribution := ⟨services, ⟨.checked, "DSP-1"⟩, 0, true, 1, none⟩

/-- Worker 0 takes the message and makes some steps. -/
def handled (services : Services) (steps : ℕ) : List Action :=
  .deliver 0 brokenMessage :: List.replicate steps (.advance 0 (plainly services))

/-- No call is about to reserve a vehicle. -/
def unopposed (s : System) : Action → Bool
  | .advance p _ =>
    match s.workers p with
    | .executing _ _ (.reserving _ _ _) _ => false
    | .executing _ _ (.committing _ (some _) _) _ => false
    | _ => true
  | _ => true

theorem attains_of_unopposed (s : System) (a : Action) (h : s.unopposed a = true) : s.Attains a := by
  cases a with
  | advance p o =>
    intro m state call rest hst
    refine .inl ?_
    simp only [unopposed, hst] at h
    unfold Attainable
    split
    · cases h
    · cases h
    · trivial
  | _ => trivial

/-- Without a fleet and a planner the dispatcher leaves a draft, and the review can be closed. -/
theorem review_has_proposal_draft : ∃ s, exec step reservedFleet (handled { fuel := 0 } 16) = some s ∧
    s.store.taskStatus "T-1" = some .reviewRequired ∧ s.store.Proposed "T-1" ∧
    ∃ store, s.store.review "T-1" .approve none 2 = .ok store ∧
      store.taskStatus "T-1" = some .approved := by
  have hx : (exec step reservedFleet (handled { fuel := 0 } 16)).map
      (fun s => decide (s.store.taskStatus "T-1" = some .reviewRequired)) = some true := by
    decide +kernel
  have hok : Meets step (fun s a => s.unopposed a = true) reservedFleet (handled { fuel := 0 } 16) := by
    decide +kernel
  obtain ⟨s, hs, hx⟩ := Option.map_eq_some_iff.mp hx
  have ht := of_decide_eq_true hx
  obtain ⟨hp, -, hclose⟩ := review_has_proposal reservedFleet_initial (hok.mono attains_of_unopposed)
    hs ht
  exact ⟨s, hs, ht, hp, hclose 2⟩

/-- **A review without a proposal.**  Both candidates are lost to other tasks, the graph asks for a
review, and there is nothing a reviewer could decide about. -/
theorem review_without_proposal :
    ¬ ∀ (run : List Action) (s : System) (t : String), exec step reservedFleet run = some s →
      s.store.taskStatus t = some .reviewRequired →
      s.store.Proposed t ∧ ∀ decision reason auditId,
        s.store.review t decision reason auditId ≠ .error .reviewDispatchMissing := by
  intro hproposed
  have hx : (exec step reservedFleet (handled (fleetServices .reserved 0) 18)).map
      (fun s => decide (s.store.taskStatus "T-1" = some .reviewRequired ∧
        s.store.dispatches.find "T-1" = none)) = some true := by
    decide +kernel
  obtain ⟨s, hs, hx⟩ := Option.map_eq_some_iff.mp hx
  obtain ⟨ht, hnone⟩ := of_decide_eq_true hx
  obtain ⟨⟨dispatch, hd⟩, -⟩ := hproposed _ s "T-1" hs ht
  rw [hnone] at hd
  cases hd

end System

end CountyFlow.Graph
