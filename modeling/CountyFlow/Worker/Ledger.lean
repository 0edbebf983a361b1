import Mathlib.Data.Int.Notation
import CountyFlow.Lib.Table
import CountyFlow.Runtime.Thread

/-!
# The task ledger

The database behind the workers, and the services that read and write it:
`IdempotencyService` (the ledger of tasks), `AuditService._persist_if_possible`, the insertion of
`DispatchService.execute`, and `ReviewDecisionService.decide`.  Every method is one transaction, so
every function here answers with the whole new database or with an exception and no change; `commits`
says whether the commit goes through.

`begin` reads before it inserts and reads again when the insertion meets a unique constraint; as a
transaction of its own it is the first reading or the insertion, whichever comes first.
-/

namespace CountyFlow.Worker

open CountyFlow.Lib CountyFlow.Runtime

/-- The statuses of a task that the API, the worker, the ledger and the reviewer write. -/
inductive TaskStatus where
  | submissionFailed
  | pending
  | processing
  | approved
  | reviewRequired
  | completed
  | failed
  | dlq
  | rejected
  deriving DecidableEq, Repr

def TaskStatus.text : TaskStatus → String
  | .submissionFailed => "SUBMISSION_FAILED"
  | .pending => "PENDING"
  | .processing => "PROCESSING"
  | .approved => "APPROVED"
  | .reviewRequired => "REVIEW_REQUIRED"
  | .completed => "COMPLETED"
  | .failed => "FAILED"
  | .dlq => "DLQ"
  | .rejected => "REJECTED"

/-- `TERMINAL_STATUSES`; the reviewer's `REJECTED` is not among them. -/
def terminalStatuses : List TaskStatus := [.approved, .completed, .dlq, .failed, .reviewRequired]

def TaskStatus.terminal (status : TaskStatus) : Bool := status ∈ terminalStatuses

structure DispatchTask where
  taskId : String
  orderId : ℤ
  idempotencyKey : String
  status : TaskStatus
  startedAt : Option ℕ
  completedAt : Option ℕ
  deriving DecidableEq, Repr

inductive DispatchStatus where
  | reviewRequired
  | rerouted
  | keptRoute
  | approved
  | rejected
  deriving DecidableEq, Repr

/-- What the worker's side reads of a row of `dispatches`; `task_id` is unique. -/
structure Dispatch where
  id : ℕ
  taskId : String
  status : DispatchStatus
  version : ℕ
  deriving DecidableEq, Repr

inductive AuditResult where
  | approved
  | reviewRequired
  | rejected
  deriving DecidableEq, Repr

def AuditResult.status : AuditResult → TaskStatus
  | .approved => .approved
  | .reviewRequired => .reviewRequired
  | .rejected => .rejected

structure AuditRecord where
  id : ℕ
  taskId : String
  dispatchId : ℕ
  result : AuditResult
  reason : String
  deriving DecidableEq, Repr

inductive IdempotencyState where
  | new
  | inProgress
  | terminal
  deriving DecidableEq, Repr

structure IdempotencyDecision where
  state : IdempotencyState
  taskId : String
  idempotencyKey : String
  existingStatus : Option TaskStatus
  shouldExecute : Bool
  reason : String
  deriving DecidableEq, Repr

structure ExecutionReconciliation where
  dispatchId : Option ℕ
  auditId : Option ℕ
  terminalStatus : Option AuditResult
  deriving DecidableEq, Repr

def ExecutionReconciliation.isTerminal (r : ExecutionReconciliation) : Bool :=
  r.terminalStatus = some .approved ∨ r.terminalStatus = some .reviewRequired

inductive ReviewDecision where
  | approve
  | reject
  deriving DecidableEq, Repr

def ReviewDecision.status : ReviewDecision → TaskStatus
  | .approve => .approved
  | .reject => .rejected

def ReviewDecision.dispatchStatus : ReviewDecision → DispatchStatus
  | .approve => .approved
  | .reject => .rejected

def ReviewDecision.result : ReviewDecision → AuditResult
  | .approve => .approved
  | .reject => .rejected

inductive ServiceError where
  | idempotencyConflict
  | valueError (message : String)
  | reviewNotFound
  | reviewAlreadyDecided
  | reviewDispatchMissing
  | reviewReasonRequired
  | reviewVersionConflict
  | databaseError
  deriving DecidableEq, Repr

/-- The tables; a thread is found by the task it belongs to, whose id is unique there too. -/
structure Db where
  tasks : Table DispatchTask DispatchTask.taskId
  threads : String → Option ThreadRecord
  dispatches : Table Dispatch Dispatch.taskId
  audits : List AuditRecord

variable {db db' : Db} {taskId key : String} {commits : Bool}

namespace Db

def status (db : Db) (taskId : String) : Option TaskStatus :=
  (db.tasks.find taskId).map DispatchTask.status

def threadStatus (db : Db) (taskId : String) : Option RuntimeThreadStatus :=
  (db.threads taskId).map fun r => r.row.status

/-- `select(DispatchTask).where(idempotency_key == ...)`. -/
def byKey (db : Db) (idempotencyKey : String) : Option DispatchTask :=
  db.tasks.rows.find? fun task => task.idempotencyKey = idempotencyKey

def existing (db : Db) (taskId idempotencyKey : String) : Except ServiceError (Option DispatchTask) :=
  if (db.tasks.find taskId).any fun task => task.idempotencyKey ≠ idempotencyKey then
    .error .idempotencyConflict
  else if (db.byKey idempotencyKey).any fun task => task.taskId ≠ taskId then
    .error .idempotencyConflict
  else .ok (db.tasks.find taskId <|> db.byKey idempotencyKey)

def decision (task : DispatchTask) : IdempotencyDecision :=
  if task.status.terminal then
    ⟨.terminal, task.taskId, task.idempotencyKey, some task.status, false, "Task is terminal."⟩
  else
    ⟨.inProgress, task.taskId, task.idempotencyKey, some task.status, false, "Task already exists."⟩

def threadIdForPersistedTask (taskId : String) : Except ServiceError String :=
  if taskId = "" then .error (.valueError "Runtime thread task ID is invalid.")
  else .ok ("cf:dispatch:" ++ taskId)

/-- `begin`: the decision about an existing task, or a new task with its thread. -/
def begin (db : Db) (taskId : String) (orderId : ℤ) (idempotencyKey : String) (commits : Bool) :
    Except ServiceError (IdempotencyDecision × Db) :=
  match db.existing taskId idempotencyKey with
  | .error e => .error e
  | .ok (some task) => .ok (decision task, db)
  | .ok none =>
    match threadIdForPersistedTask taskId with
    | .error e => .error e
    | .ok threadId =>
      match db.tasks.add ⟨taskId, orderId, idempotencyKey, .pending, none, none⟩ with
      | none => .error .databaseError
      | some tasks =>
        if (db.threads taskId).isSome ∨ commits = false then .error .databaseError
        else .ok (⟨.new, taskId, idempotencyKey, none, true, "Ledger created."⟩,
          { db with
            tasks := tasks
            threads := Function.update db.threads taskId
              (some (ThreadRecord.create taskId threadId)) })

def setStatus (db : Db) (taskId : String) (status : TaskStatus) (started completed : Bool) (now : ℕ)
    (commits : Bool) : Except ServiceError Db :=
  match db.tasks.find taskId with
  | none => .error (.valueError "Dispatch task does not exist.")
  | some task =>
    if commits = false then .error .databaseError
    else .ok { db with tasks := db.tasks.replace { task with
      status := status
      startedAt := if started then some now else task.startedAt
      completedAt := if completed then some now else task.completedAt } }

def markProcessing (db : Db) (taskId : String) (now : ℕ) (commits : Bool) : Except ServiceError Db :=
  db.setStatus taskId .processing true false now commits

def markTerminal (db : Db) (taskId : String) (status : TaskStatus) (now : ℕ) (commits : Bool) :
    Except ServiceError Db :=
  db.setStatus taskId status false true now commits

def auditsOf (db : Db) (taskId : String) (dispatchId : ℕ) : List AuditRecord :=
  db.audits.filter fun audit => audit.taskId = taskId ∧ audit.dispatchId = dispatchId

/-- `reconcile_existing_execution`.  The query has no order, so that with several audit rows the
database answers with any of them: `pick` says which. -/
def reconcileExistingExecution (db : Db) (taskId : String) (pick : ℕ) : ExecutionReconciliation :=
  match db.tasks.find taskId with
  | none => ⟨none, none, none⟩
  | some _ =>
    match db.dispatches.find taskId with
    | none => ⟨none, none, none⟩
    | some dispatch =>
      let rows := db.auditsOf taskId dispatch.id
      let audit := rows[pick % rows.length]?
      ⟨some dispatch.id, audit.map AuditRecord.id, audit.map AuditRecord.result⟩

/-- `DispatchService.execute` for a task, as far as the worker's tables go: a proposal, unless the
task has one. -/
def executeDispatch (db : Db) (taskId : String) (id : ℕ) (status : DispatchStatus) : Db :=
  match db.tasks.find taskId, db.dispatches.add ⟨id, taskId, status, 1⟩ with
  | some _, some dispatches => { db with dispatches := dispatches }
  | _, _ => db

/-- `_persist_if_possible`: an audit row, unless the dispatch has one. -/
def persistAudit (db : Db) (taskId : String) (id : ℕ) (result : AuditResult) (reason : String) : Db :=
  match db.tasks.find taskId, db.dispatches.find taskId with
  | some _, some dispatch =>
    if (db.auditsOf taskId dispatch.id).isEmpty then
      { db with audits := db.audits ++ [⟨id, taskId, dispatch.id, result, reason⟩] }
    else db
  | _, _ => db

/-- `str.isspace` of a character, which `str.strip` removes. -/
def isSpace (c : Char) : Bool :=
  c.toNat ∈ [9, 10, 11, 12, 13, 28, 29, 30, 31, 32, 133, 160, 5760, 8232, 8233, 8239, 8287, 12288] ∨
    (8192 ≤ c.toNat ∧ c.toNat ≤ 8202)

def strip (s : String) : String :=
  String.ofList ((s.toList.dropWhile isSpace).reverse.dropWhile isSpace).reverse

/-- `_reason`. -/
def reviewReason (decision : ReviewDecision) (reason : Option String) : Except ServiceError String :=
  let normalized := (reason.map strip).getD ""
  if 500 < normalized.length then .error (.valueError "review reason exceeds 500 characters")
  else if decision = .reject ∧ normalized.length < 2 then .error .reviewReasonRequired
  else if decision = .approve ∧ normalized = "" then .ok "人工复核已批准。"
  else .ok normalized

/-- `decide`: the task, its dispatch and a second audit row change together. -/
def decide (db : Db) (taskId : String) (decision : ReviewDecision) (reason : Option String)
    (auditId now : ℕ) (commits : Bool) : Except ServiceError Db :=
  match reviewReason decision reason with
  | .error e => .error e
  | .ok normalized =>
    match db.tasks.find taskId with
    | none => .error .reviewNotFound
    | some task =>
      if task.status ≠ .reviewRequired then .error .reviewAlreadyDecided
      else match db.dispatches.find taskId with
        | none => .error .reviewDispatchMissing
        | some dispatch =>
          if commits = false then .error .reviewVersionConflict
          else .ok
            { db with
              tasks := db.tasks.replace
                { task with status := decision.status, completedAt := some now }
              dispatches := db.dispatches.replace
                { dispatch with
                  status := decision.dispatchStatus
                  version := dispatch.version + 1 }
              audits := db.audits ++
                [⟨auditId, taskId, dispatch.id, decision.result, normalized⟩] }

/-! ### What the calls do -/

theorem existing_ok {task : DispatchTask} (h : db.existing taskId key = .ok (some task)) :
    db.tasks.find taskId = some task ∧ task.idempotencyKey = key := by
  unfold existing at h
  split at h
  · cases h
  · rename_i hkey
    split at h
    · cases h
    · rename_i htask
      have h' := Except.ok.inj h
      cases hf : db.tasks.find taskId with
      | some row =>
        rw [hf] at h' hkey
        cases h'
        simpa using hkey
      | none =>
        rw [hf] at h'
        have hb : db.byKey key = some task := h'
        rw [hb] at htask
        have hid : task.taskId = taskId := by simpa using htask
        have hmem : task ∈ db.tasks.rows := List.mem_of_find?_eq_some hb
        rw [← hid, Table.find_of_mem hmem] at hf
        cases hf

theorem existing_none (h : db.existing taskId key = .ok none) : db.tasks.find taskId = none := by
  unfold existing at h
  split at h
  · cases h
  · split at h
    · cases h
    · have h' := Except.ok.inj h
      cases hf : db.tasks.find taskId with
      | some row =>
        rw [hf] at h'
        cases h'
      | none => rfl

theorem begin_ok {orderId : ℤ} {d : IdempotencyDecision}
    (h : db.begin taskId orderId key commits = .ok (d, db')) :
    (∃ task, db' = db ∧ db.tasks.find taskId = some task ∧ task.idempotencyKey = key ∧
        d = decision task) ∨
      (∃ tasks threadId, d.state = .new ∧ db.tasks.find taskId = none ∧ db.threads taskId = none ∧
        db.tasks.add ⟨taskId, orderId, key, .pending, none, none⟩ = some tasks ∧
        db' = { db with
          tasks := tasks
          threads := Function.update db.threads taskId
            (some (ThreadRecord.create taskId threadId)) }) := by
  unfold begin at h
  split at h
  · cases h
  · rename_i task hex
    cases h
    obtain ⟨hfind, hkey⟩ := existing_ok hex
    exact .inl ⟨task, rfl, hfind, hkey, rfl⟩
  · rename_i hex
    split at h
    · cases h
    · rename_i threadId _
      split at h
      · cases h
      · rename_i tasks hadd
        split at h
        · cases h
        · rename_i hfree
          cases h
          have hthread : db.threads taskId = none := by
            cases ht : db.threads taskId with
            | none => rfl
            | some r => exact absurd (Or.inl (by rw [ht]; rfl)) hfree
          exact .inr ⟨tasks, threadId, rfl, existing_none hex, hthread, hadd, rfl⟩

theorem setStatus_ok {status : TaskStatus} {started completed : Bool} {now : ℕ}
    (h : db.setStatus taskId status started completed now commits = .ok db') :
    ∃ task task', db.tasks.find taskId = some task ∧ task'.taskId = taskId ∧
      task'.idempotencyKey = task.idempotencyKey ∧ task'.status = status ∧
      db' = { db with tasks := db.tasks.replace task' } := by
  unfold setStatus at h
  split at h
  · cases h
  · rename_i task hfind
    split at h
    · cases h
    · refine ⟨task, { task with
        status := status
        startedAt := if started then some now else task.startedAt
        completedAt := if completed then some now else task.completedAt }, hfind, ?_, rfl, rfl, ?_⟩
      · show task.taskId = taskId
        exact Table.find_key hfind
      · exact (Except.ok.inj h).symm

theorem decide_ok {decision : ReviewDecision} {reason : Option String} {auditId now : ℕ}
    (h : db.decide taskId decision reason auditId now commits = .ok db') :
    ∃ task task' dispatch dispatch' audit, db.tasks.find taskId = some task ∧
      task.status = .reviewRequired ∧ task'.taskId = taskId ∧
      task'.idempotencyKey = task.idempotencyKey ∧
      task'.status = decision.status ∧
      db.dispatches.find taskId = some dispatch ∧ dispatch'.taskId = taskId ∧
      dispatch'.status = decision.dispatchStatus ∧
      db' = { db with
        tasks := db.tasks.replace task'
        dispatches := db.dispatches.replace dispatch'
        audits := db.audits ++ [audit] } := by
  unfold decide at h
  split at h
  · cases h
  · split at h
    · cases h
    · rename_i task hfind
      split at h
      · cases h
      · rename_i hstatus
        split at h
        · cases h
        · rename_i dispatch hdispatch
          split at h
          · cases h
          · refine ⟨task, { task with status := decision.status, completedAt := some now }, dispatch,
              { dispatch with
                status := decision.dispatchStatus
                version := dispatch.version + 1 }, _, hfind, not_not.mp hstatus, ?_, rfl, rfl,
              hdispatch, ?_, rfl, (Except.ok.inj h).symm⟩
            · show task.taskId = taskId
              exact Table.find_key hfind
            · show dispatch.taskId = taskId
              exact Table.find_key hdispatch

end Db

end CountyFlow.Worker
