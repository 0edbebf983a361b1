import Mathlib.Algebra.Ring.Nat
import CountyFlow.Worker.Ledger

/-!
# The worker

`DispatchWorker.process_message` and `_recover_message`, with ledger, execution lock and thread
repository configured, as a state machine: a state is a point between two calls that other workers
can see, and a step is one such call.  Messages are processed one by one, so that a process here is
one message in one worker's hands; how many workers there are does not matter.

The graph of agents runs inside a step of its own: it calls the thread repository, proposes a
dispatch and persists an audit, any number of times and in any order, and ends with a final state or
an exception.  The event streams the worker publishes to are not modelled; an exception between two
calls, from publishing or from a cancellation, is `WorkerState.failed`.
-/

namespace CountyFlow.Worker

open CountyFlow.Lib CountyFlow.Runtime Function

/-! ### Messages -/

/-- What the worker reads of a `DispatchTaskMessage`; the rest is handed on to the graph. -/
structure DispatchTaskMessage where
  taskId : String
  orderId : ℤ
  idempotencyKey : String
  anomalyType : String
  deriving DecidableEq, Repr

structure StreamMessage where
  messageId : String
  task : DispatchTaskMessage
  deliveryCount : Option ℕ
  deriving DecidableEq, Repr

/-- Where an entry of the stream stands in the consumer group. -/
inductive Delivery where
  | new
  | pending (count : ℕ)
  | acknowledged
  deriving DecidableEq, Repr

structure Entry where
  task : DispatchTaskMessage
  delivery : Delivery
  deriving DecidableEq, Repr

/-- `DeadLetterMessage`. -/
structure DeadLetter where
  originalMessageId : String
  task : DispatchTaskMessage
  failureReason : String
  errorCode : String
  deliveryCount : ℕ
  deriving DecidableEq, Repr

structure RetryPolicy where
  maxDeliveryAttempts : ℕ
  baseDelayMs : ℕ
  maxDelayMs : ℕ
  deriving DecidableEq, Repr

def RetryPolicy.shouldRetry (policy : RetryPolicy) (deliveryCount : ℕ) : Bool :=
  deliveryCount < policy.maxDeliveryAttempts

def RetryPolicy.backoffMs (policy : RetryPolicy) (deliveryCount : ℕ) : ℕ :=
  min (policy.baseDelayMs * 2 ^ (deliveryCount - 1)) policy.maxDelayMs

def defaultRetryPolicy : RetryPolicy := ⟨3, 1000, 30000⟩

structure WorkerConfig where
  consumerName : String
  retryPolicy : RetryPolicy
  deriving DecidableEq, Repr

/-! ### The shared state -/

/-- What the workers share: the database, the execution locks with their tokens, the stream and the
dead-letter stream. -/
structure World where
  db : Db
  locks : String → Option ℕ
  stream : String → Option Entry
  deadLetters : List DeadLetter

namespace World

def setThread (w : World) (taskId : String) (record : ThreadRecord) : World :=
  { w with db := { w.db with threads := update w.db.threads taskId (some record) } }

/-- `acquire` with a new token. -/
def acquire (w : World) (key : String) (token : ℕ) : Bool × World :=
  match w.locks key with
  | none => (true, { w with locks := update w.locks key (some token) })
  | some _ => (false, w)

/-- `release` deletes the lock only under its own token. -/
def release (w : World) (key : String) (token : ℕ) : World :=
  if w.locks key = some token then { w with locks := update w.locks key none } else w

/-- `ack`: whether the entry was pending. -/
def ack (w : World) (messageId : String) : Bool × World :=
  match w.stream messageId with
  | some ⟨task, .pending _⟩ =>
    (true, { w with stream := update w.stream messageId (some ⟨task, .acknowledged⟩) })
  | _ => (false, w)

end World

/-! ### The graph -/

/-- A call of the graph runner or of the thread reconciler to the thread repository. -/
inductive ThreadOp where
  | claimNextNode (checkpointId : String) (stateVersion : ℕ) (nextNode : String)
  | promote (command : PromoteCheckpoint)
  | reconcile (command : PromoteCheckpoint)
  | resumed (resumeKey : String)
  deriving DecidableEq, Repr

/-- The call with the event keys its caller forms. -/
def ThreadOp.run (consumer : String) (commits : Bool) (r : ThreadRecord) :
    ThreadOp → Except RuntimeThreadError ThreadRecord
  | .claimNextNode c v n => r.claimNextNode c v n consumer
  | .promote command => r.promoteCheckpoint
      { command with
        workerConsumer := consumer
        eventKey := "checkpoint:" ++ command.checkpointId
        eventType := .checkpointPromoted } commits
  | .reconcile command => r.promoteCheckpoint
      { command with
        workerConsumer := consumer
        eventKey := "reconcile:" ++ command.checkpointId
        eventType := .reconciliation } commits
  | .resumed key => r.markResumed ("resume:" ++ key) consumer commits

/-- What `_terminal_state` reads of the final state: `error_code` if it is a text, whether
`requires_manual_review` is `True`, and the `audit_status` of an `audit_result` that is a mapping. -/
structure FinalState where
  errorCode : Option String
  requiresManualReview : Bool
  auditStatus : Option String
  deriving DecidableEq, Repr

def terminalState (final : FinalState) : Option TaskStatus × Bool × Option String :=
  if final.errorCode = some "AUDIT_PERSISTENCE_ERROR" then
    (none, final.requiresManualReview, final.errorCode)
  else if final.auditStatus = some "APPROVED" then
    (some .approved, final.requiresManualReview, final.errorCode)
  else if final.auditStatus = some "REVIEW_REQUIRED" ∧ final.requiresManualReview then
    (some .reviewRequired, true, final.errorCode)
  else (none, final.requiresManualReview, final.errorCode)

/-- What the graph does next. -/
inductive GraphStep where
  | thread (op : ThreadOp)
  | dispatch (id : ℕ) (status : DispatchStatus)
  | audit (id : ℕ) (result : AuditResult) (reason : String)
  | failed
  | finished (final : FinalState)
  deriving DecidableEq, Repr

/-! ### The states of a worker -/

structure WorkerProcessResult where
  messageId : String
  taskId : String
  acknowledged : Bool
  terminalStatus : Option String
  requiresManualReview : Bool
  errorCode : Option String
  deliveryCount : Option ℕ := none
  retried : Bool := false
  movedToDlq : Bool := false
  backoffMs : Option ℕ := none
  idempotencyState : Option IdempotencyState := none
  duplicateSkipped : Bool := false
  lockAcquired : Option Bool := none
  reconciled : Bool := false
  deriving DecidableEq, Repr

/-- The paths that end in an acknowledgement. -/
inductive Path where
  | replay (status : TaskStatus)
  | reconciled (status : TaskStatus)
  | fresh (status : TaskStatus) (state : IdempotencyState) (manualReview : Bool)
      (errorCode : Option String)
  | deadLetter (deliveryCount : ℕ)
  deriving DecidableEq, Repr

def Path.status : Path → TaskStatus
  | .replay status | .reconciled status | .fresh status _ _ _ => status
  | .deadLetter _ => .dlq

def Path.errorCode : Path → Option String
  | .deadLetter _ => some "MAX_DELIVERY_ATTEMPTS_EXCEEDED"
  | _ => none

/-- What `begin` had answered, for the paths under the lock. -/
def Path.idempotencyState : Path → Option IdempotencyState
  | .replay _ => some .terminal
  | .reconciled _ => some .inProgress
  | .fresh _ state _ _ => some state
  | .deadLetter _ => none

/-- The path has yet to record its status, and does so under the lock. -/
def Path.unrecorded : Path → Bool
  | .reconciled _ | .fresh _ _ _ _ => true
  | .replay _ | .deadLetter _ => false

def Path.locked : Path → Bool
  | .deadLetter _ => false
  | _ => true

/-- A point of `_recover_message` or `process_message` between two calls.  From `begin` on, up to the
release, the worker holds the execution lock; the dead-letter path never does. -/
inductive WorkerState where
  | idle
  | recovering (m : StreamMessage)
  | probing (m : StreamMessage) (deliveryCount : ℕ)
  | probed (m : StreamMessage) (deliveryCount : ℕ)
  | acquiring (m : StreamMessage)
  | beginning (m : StreamMessage)
  | reconciling (m : StreamMessage)
  | starting (m : StreamMessage)
  | loading (m : StreamMessage) (state : IdempotencyState)
  | mending (m : StreamMessage) (state : IdempotencyState)
  | running (m : StreamMessage) (state : IdempotencyState)
  | looking (m : StreamMessage) (path : Path)
  | terminating (m : StreamMessage) (path : Path) (currentNode : Option String)
  | recording (m : StreamMessage) (path : Path)
  | publishing (m : StreamMessage) (path : Path)
  | handling (m : StreamMessage) (path : Path)
  | appending (m : StreamMessage) (deliveryCount : ℕ)
  | acking (m : StreamMessage) (path : Path)
  | releasing (m : StreamMessage) (result : Option WorkerProcessResult)
  | done (result : Option WorkerProcessResult)
  deriving DecidableEq, Repr

/-- What the world contributes to a step: the time, whether the call raises, which of several audit
rows a query without an order answers with, whether the thread reconciler has something to promote,
and what the graph does. -/
structure Outcome where
  now : ℕ
  raises : Bool
  pick : ℕ
  mend : Option PromoteCheckpoint
  graph : GraphStep
  deriving DecidableEq, Repr

variable {st : WorkerState} {m : StreamMessage} {w w' : World} {p : ℕ} {config : WorkerConfig} {o : Outcome}

namespace WorkerState

/-- The result of `process_message`, which `_recover_message` completes for a recovered message. -/
def complete (config : WorkerConfig) (m : StreamMessage) (r : WorkerProcessResult) :
    WorkerProcessResult :=
  match m.deliveryCount with
  | none => r
  | some n => { r with
      deliveryCount := some n, retried := true, backoffMs := some (config.retryPolicy.backoffMs n) }

def unacknowledged (m : StreamMessage) (status errorCode : Option String)
    (state : Option IdempotencyState) : WorkerProcessResult :=
  { messageId := m.messageId, taskId := m.task.taskId, acknowledged := false
    terminalStatus := status, requiresManualReview := false, errorCode := errorCode
    idempotencyState := state, lockAcquired := some true }

def locked (m : StreamMessage) : WorkerProcessResult :=
  { unacknowledged m (some "LOCKED") none none with lockAcquired := some false }

/-- An exception in `process_message`, after the lock: the `finally` block releases it. -/
def abort (m : StreamMessage) : WorkerState := .releasing m none

/-- `_runtime_terminal_failure`, or its counterpart on the dead-letter path. -/
def terminalFailure (m : StreamMessage) (path : Path) : WorkerState :=
  match path with
  | .deadLetter n => .done (some
      { unacknowledged m none (some "RUNTIME_THREAD_TERMINAL_ERROR") none with
        deliveryCount := some n, lockAcquired := none })
  | path => .releasing m (some
      (unacknowledged m none (some "RUNTIME_THREAD_TERMINAL_ERROR") path.idempotencyState))

def abortPath (m : StreamMessage) (path : Path) : WorkerState :=
  match path with
  | .deadLetter _ => .done none
  | _ => abort m

/-- After `_mark_runtime_terminal`, which the callers take as a failure only when there is no thread:
a replay goes on to publish, the others record the status in the ledger. -/
def afterTerminal (m : StreamMessage) (path : Path) : WorkerState :=
  match path with
  | .replay _ => .publishing m path
  | path => .recording m path

def afterRecord (m : StreamMessage) (path : Path) : WorkerState :=
  match path with
  | .deadLetter n => .appending m n
  | path => .publishing m path

/-- `str(...).upper() == "VEHICLE_BREAKDOWN"`; of the characters that `upper` maps into that word
only the dotless i is not an ASCII letter. -/
def isBreakdown (anomalyType : String) : Bool :=
  anomalyType.toList.map (fun c => if c = 'ı' then 'I' else c.toUpper) = "VEHICLE_BREAKDOWN".toList

def acknowledged (m : StreamMessage) (path : Path) (ok : Bool) : WorkerProcessResult :=
  match path with
  | .replay status | .reconciled status =>
    { messageId := m.messageId, taskId := m.task.taskId, acknowledged := ok
      terminalStatus := some status.text
      requiresManualReview := status = .reviewRequired, errorCode := none
      idempotencyState := some .terminal, duplicateSkipped := true, lockAcquired := some true
      reconciled := path matches .reconciled _ }
  | .fresh status state manualReview errorCode =>
    { messageId := m.messageId, taskId := m.task.taskId, acknowledged := ok
      terminalStatus := some status.text, requiresManualReview := manualReview
      errorCode := errorCode, idempotencyState := some state, lockAcquired := some true }
  | .deadLetter n =>
    { messageId := m.messageId, taskId := m.task.taskId, acknowledged := true
      terminalStatus := some "DLQ", requiresManualReview := false
      errorCode := some "MAX_DELIVERY_ATTEMPTS_EXCEEDED", deliveryCount := some n
      movedToDlq := true }

/-- A step after the ledger failed: the message is left for a replay. -/
def postponed (m : StreamMessage) (path : Path) (errorCode : String) : WorkerProcessResult :=
  { acknowledged m path false with
    requiresManualReview := match path with
      | .fresh _ _ manualReview _ => manualReview
      | _ => false
    errorCode := some errorCode, duplicateSkipped := false }

/-- `_recover_message` up to the first call. -/
def recover (config : WorkerConfig) (m : StreamMessage) : WorkerState :=
  match m.deliveryCount with
  | none => .done (some { messageId := m.messageId, taskId := m.task.taskId, acknowledged := false
                          terminalStatus := none, requiresManualReview := false
                          errorCode := some "DELIVERY_COUNT_UNAVAILABLE" })
  | some n => if config.retryPolicy.shouldRetry n then .acquiring m else .probing m n

/-- The branches of `process_message` on the decision of `begin`. -/
def afterBegin (m : StreamMessage) (d : IdempotencyDecision) : WorkerState :=
  match d.state with
  | .terminal => .looking m (.replay (d.existingStatus.getD .completed))
  | .inProgress => .reconciling m
  | .new => .starting m

/-- After `reconcile_existing_execution`. -/
def afterReconcile (m : StreamMessage) (r : ExecutionReconciliation) : WorkerState :=
  if r.isTerminal then
    .looking m (.reconciled ((r.terminalStatus.map AuditResult.status).getD .completed))
  else .loading m .inProgress

def paused (thread : Option ThreadRecord) : Bool :=
  thread.any fun r => r.row.status = .stable ∧ r.row.nextNode ≠ none

/-- `_process_graph` after the graph: only an approval or a review is persisted, and a final state
without either is a pause when the thread rests at a boundary. -/
def afterGraph (m : StreamMessage) (state : IdempotencyState) (final : FinalState) (raises : Bool)
    (thread : Option ThreadRecord) : WorkerState :=
  match terminalState final with
  | (some status, manualReview, errorCode) => .looking m (.fresh status state manualReview errorCode)
  | (none, manualReview, errorCode) =>
    if raises then abort m
    else if paused thread then
      .releasing m (some (unacknowledged m none (some "RUNTIME_THREAD_PAUSED") (some state)))
    else .releasing m (some
      { unacknowledged m none errorCode (some state) with requiresManualReview := manualReview })

/-- One repository call of the graph. -/
def graphStep (config : WorkerConfig) (m : StreamMessage) (state : IdempotencyState) (o : Outcome)
    (w : World) : WorkerState × World :=
  match o.graph with
  | .thread op =>
    match w.db.threads m.task.taskId with
    | none => (.releasing m (some (unacknowledged m (some "FAILED") (some "GRAPH_EXECUTION_ERROR")
        (some state))), w)
    | some r =>
      match op.run config.consumerName (!o.raises) r with
      | .error _ => (.releasing m (some (unacknowledged m (some "FAILED")
          (some "GRAPH_EXECUTION_ERROR") (some state))), w)
      | .ok r' => (.running m state, w.setThread m.task.taskId r')
  | .dispatch id status => (.running m state,
      { w with db := w.db.executeDispatch m.task.taskId id status })
  | .audit id result reason => (.running m state,
      { w with db := w.db.persistAudit m.task.taskId id result reason })
  | .failed => (.releasing m (some (unacknowledged m (some "FAILED") (some "GRAPH_EXECUTION_ERROR")
      (some state))), w)
  | .finished final => (afterGraph m state final o.raises (w.db.threads m.task.taskId), w)

/-- `mark_terminal` of the thread: an exception is logged and answered with `False`, which no caller
tells from a snapshot. -/
def terminate (config : WorkerConfig) (m : StreamMessage) (path : Path) (currentNode : Option String)
    (o : Outcome) (w : World) : WorkerState × World :=
  match w.db.threads m.task.taskId with
  | none => (afterTerminal m path, w)
  | some r =>
    match r.markTerminal ("terminal:" ++ path.status.text) config.consumerName currentNode
        path.errorCode o.now (!o.raises) with
    | .error _ => (afterTerminal m path, w)
    | .ok r' => (afterTerminal m path, w.setThread m.task.taskId r')

/-- One call of a worker with token `p`; `none` when it is over. -/
def step (config : WorkerConfig) (p : ℕ) (o : Outcome) (w : World) :
    WorkerState → Option (WorkerState × World)
  | .idle | .done _ => none
  | .recovering m => some (recover config m, w)
  | .probing m n =>
    if o.raises then some (.done none, w)
    else match w.acquire m.task.idempotencyKey p with
      | (false, _) => some (.done (some { locked m with deliveryCount := some n }), w)
      | (true, w') => some (.probed m n, w')
  | .probed m n =>
    if o.raises then some (.done none, w)
    else some (.looking m (.deadLetter n), w.release m.task.idempotencyKey p)
  | .acquiring m =>
    if o.raises then some (.done none, w)
    else match w.acquire m.task.idempotencyKey p with
      | (false, _) => some (.done (some (complete config m (locked m))), w)
      | (true, w') => some (.beginning m, w')
  | .beginning m =>
    if o.raises then some (abort m, w)
    else match w.db.begin m.task.taskId m.task.orderId m.task.idempotencyKey true with
      | .error _ => some (abort m, w)
      | .ok (d, db) => some (afterBegin m d, { w with db := db })
  | .reconciling m =>
    if o.raises then some (abort m, w)
    else some (afterReconcile m (w.db.reconcileExistingExecution m.task.taskId o.pick), w)
  | .starting m =>
    match w.db.markProcessing m.task.taskId o.now (!o.raises) with
    | .error _ => some (abort m, w)
    | .ok db => some (.loading m .new, { w with db := db })
  | .loading m state =>
    if o.raises then some (.releasing m (some (unacknowledged m none
      (some "RUNTIME_THREAD_RECONCILIATION_ERROR") (some state))), w)
    else some (.mending m state, w)
  | .mending m state =>
    match o.mend, w.db.threads m.task.taskId with
    | some command, some r =>
      match (ThreadOp.reconcile command).run config.consumerName (!o.raises) r with
      | .error _ => some (.releasing m (some (unacknowledged m none
          (some "RUNTIME_THREAD_RECONCILIATION_ERROR") (some state))), w)
      | .ok r' => some (.running m state, w.setThread m.task.taskId r')
    | _, _ =>
      if o.raises then some (.releasing m (some (unacknowledged m none
        (some "RUNTIME_THREAD_RECONCILIATION_ERROR") (some state))), w)
      else some (.running m state, w)
  | .running m state => some (graphStep config m state o w)
  | .looking m path =>
    if o.raises then some (abortPath m path, w)
    else match w.db.threads m.task.taskId with
      | none => some (terminalFailure m path, w)
      | some r => some (.terminating m path r.row.currentNode, w)
  | .terminating m path node => some (terminate config m path node o w)
  | .recording m path =>
    match w.db.markTerminal m.task.taskId path.status o.now (!o.raises) with
    | .error _ => some (abortPath m path, w)
    | .ok db => some (afterRecord m path, { w with db := db })
  | .publishing m path =>
    if path.status = .approved ∧ o.raises then
      some (.releasing m (some (postponed m path "AUTO_PUBLICATION_ERROR")), w)
    else some (.handling m path, w)
  | .handling m path =>
    if path.status = .approved ∧ isBreakdown m.task.anomalyType ∧ o.raises then
      some (.releasing m (some (postponed m path "VEHICLE_RESCUE_ORCHESTRATION_ERROR")), w)
    else some (.acking m path, w)
  | .appending m n =>
    if o.raises then some (.done none, w)
    else some (.acking m (.deadLetter n),
      { w with deadLetters := w.deadLetters ++ [⟨m.messageId, m.task,
        "Maximum delivery attempts exceeded.", "MAX_DELIVERY_ATTEMPTS_EXCEEDED", n⟩] })
  | .acking m path =>
    if o.raises then some (abortPath m path, w)
    else match path with
      | .deadLetter _ => some (.done (some (acknowledged m path true)), (w.ack m.messageId).2)
      | _ => some (.releasing m (some (acknowledged m path (w.ack m.messageId).1)),
          (w.ack m.messageId).2)
  | .releasing m result =>
    if o.raises then some (.done none, w)
    else some (.done (result.map (complete config m)), w.release m.task.idempotencyKey p)

/-- An exception between two calls, at the point the worker has reached: under the lock the `finally`
block runs. -/
def failed : WorkerState → WorkerState
  | .beginning m | .reconciling m | .starting m | .loading m _ | .mending m _ | .running m _ => abort m
  | .looking m path | .terminating m path _ | .recording m path | .publishing m path
  | .handling m path | .acking m path => abortPath m path
  | _ => .done none

/-! ### Locks and ledger rows in the hands of a worker -/

/-- The key of the execution lock the worker relies on: from the acquisition to its ledger write. -/
def relies : WorkerState → Option String
  | .beginning m | .reconciling m | .starting m | .loading m _ | .mending m _ | .running m _ =>
    some m.task.idempotencyKey
  | .looking m path | .terminating m path _ =>
    if path.unrecorded then some m.task.idempotencyKey else none
  | .recording m path => if path.locked then some m.task.idempotencyKey else none
  | _ => none

/-- The task whose ledger row the worker may still write under the lock. -/
def writes : WorkerState → Option String
  | .reconciling m | .starting m | .loading m _ | .mending m _ | .running m _ => some m.task.taskId
  | .looking m path | .terminating m path _ => if path.unrecorded then some m.task.taskId else none
  | .recording m path => if path.locked then some m.task.taskId else none
  | _ => none

def message : WorkerState → Option StreamMessage
  | .recovering m | .probing m _ | .probed m _ | .acquiring m | .beginning m | .reconciling m
  | .starting m | .loading m _ | .mending m _ | .running m _ | .looking m _ | .terminating m _ _
  | .recording m _ | .publishing m _ | .handling m _ | .appending m _ | .acking m _
  | .releasing m _ => some m
  | .idle | .done _ => none

/-- The worker goes on with the same message, and relies on and writes no more than before. -/
structure Narrows (st st' : WorkerState) : Prop where
  relies : ∀ k, st'.relies = some k → st.relies = some k
  writes : ∀ t, st'.writes = some t → st.writes = some t
  message : ∀ m, st'.message = some m → st.message = some m

/-- **What a step of a worker does to the shared state.** -/
inductive Moves (config : WorkerConfig) (p : ℕ) (w : World) : WorkerState → WorkerState → World → Prop
  | quiet {st st' : WorkerState} : Narrows st st' → Moves config p w st st' w
  | probed {m : StreamMessage} {n : ℕ} : w.locks m.task.idempotencyKey = none →
      Moves config p w (.probing m n) (.probed m n)
        { w with locks := update w.locks m.task.idempotencyKey (some p) }
  | acquired {m : StreamMessage} : w.locks m.task.idempotencyKey = none →
      Moves config p w (.acquiring m) (.beginning m)
        { w with locks := update w.locks m.task.idempotencyKey (some p) }
  | released {st st' : WorkerState} {k : String} : Narrows st st' → st'.relies = none →
      Moves config p w st st' (w.release k p)
  | began {m : StreamMessage} {d : IdempotencyDecision} {db : Db} :
      w.db.begin m.task.taskId m.task.orderId m.task.idempotencyKey true = .ok (d, db) →
      Moves config p w (.beginning m) (afterBegin m d) { w with db := db }
  | started {m : StreamMessage} {now : ℕ} {commits : Bool} {db : Db} :
      w.db.markProcessing m.task.taskId now commits = .ok db →
      Moves config p w (.starting m) (.loading m .new) { w with db := db }
  | recorded {m : StreamMessage} {path : Path} {now : ℕ} {commits : Bool} {db : Db} :
      w.db.markTerminal m.task.taskId path.status now commits = .ok db →
      Moves config p w (.recording m path) (afterRecord m path) { w with db := db }
  | steered {m : StreamMessage} {st : WorkerState} {state : IdempotencyState} {op : ThreadOp}
      {commits : Bool} {r r' : ThreadRecord} : (st = .mending m state ∨ st = .running m state) →
      w.db.threads m.task.taskId = some r → op.run config.consumerName commits r = .ok r' →
      Moves config p w st (.running m state) (w.setThread m.task.taskId r')
  | terminated {m : StreamMessage} {path : Path} {node : Option String} {now : ℕ} {commits : Bool}
      {r r' : ThreadRecord} : w.db.threads m.task.taskId = some r →
      r.markTerminal ("terminal:" ++ path.status.text) config.consumerName node path.errorCode now
        commits = .ok r' →
      Moves config p w (.terminating m path node) (afterTerminal m path)
        (w.setThread m.task.taskId r')
  | proposed {m : StreamMessage} {state : IdempotencyState} {id : ℕ} {status : DispatchStatus} :
      Moves config p w (.running m state) (.running m state)
        { w with db := w.db.executeDispatch m.task.taskId id status }
  | audited {m : StreamMessage} {state : IdempotencyState} {id : ℕ} {result : AuditResult}
      {reason : String} : Moves config p w (.running m state) (.running m state)
        { w with db := w.db.persistAudit m.task.taskId id result reason }
  | appended {m : StreamMessage} {n : ℕ} {letter : DeadLetter} :
      Moves config p w (.appending m n) (.acking m (.deadLetter n))
        { w with deadLetters := w.deadLetters ++ [letter] }
  | acked {m : StreamMessage} {path : Path} {st' : WorkerState} : Narrows (.acking m path) st' →
      Moves config p w (.acking m path) st' (w.ack m.messageId).2

theorem Narrows.done (st : WorkerState) (r : Option WorkerProcessResult) : Narrows st (.done r) :=
  ⟨fun _ h => (by cases h), fun _ h => (by cases h), fun _ h => (by cases h)⟩

theorem Narrows.releasing (h : st.message = some m)
    (r : Option WorkerProcessResult) : Narrows st (.releasing m r) :=
  ⟨fun _ h => (by cases h), fun _ h => (by cases h), fun m' hm => by rw [h, ← Option.some.inj hm]⟩

theorem Narrows.abortPath (h : st.message = some m) (path : Path) : Narrows st (abortPath m path) := by
  cases path with
  | deadLetter n => exact .done st none
  | _ => exact .releasing h none

theorem Narrows.terminalFailure (h : st.message = some m)
    (path : Path) : Narrows st (terminalFailure m path) := by
  cases path with
  | deadLetter n => exact .done st _
  | _ => exact .releasing h _

theorem Narrows.afterTerminal (m : StreamMessage) (path : Path) (node : Option String) :
    Narrows (.terminating m path node) (afterTerminal m path) := by
  cases path with
  | replay status => exact ⟨fun _ h => (by cases h), fun _ h => (by cases h), fun _ h => h⟩
  | deadLetter n => exact ⟨fun _ h => (by cases h), fun _ h => (by cases h), fun _ h => h⟩
  | _ => exact ⟨fun _ h => h, fun _ h => h, fun _ h => h⟩

theorem Narrows.failed (st : WorkerState) : Narrows st st.failed := by
  cases st with
  | beginning m => exact .releasing rfl none
  | reconciling m => exact .releasing rfl none
  | starting m => exact .releasing rfl none
  | loading m state => exact .releasing rfl none
  | mending m state => exact .releasing rfl none
  | running m state => exact .releasing rfl none
  | looking m path => exact .abortPath rfl path
  | terminating m path node => exact .abortPath rfl path
  | recording m path => exact .abortPath rfl path
  | publishing m path => exact .abortPath rfl path
  | handling m path => exact .abortPath rfl path
  | acking m path => exact .abortPath rfl path
  | _ => exact .done _ none

theorem acquire_true {k : String} (h : w.acquire k p = (true, w')) :
    w.locks k = none ∧ w' = { w with locks := update w.locks k (some p) } := by
  unfold World.acquire at h
  split at h
  · rename_i hnone
    exact ⟨hnone, (Prod.mk.inj h).2.symm⟩
  · cases h

theorem graphStep_moves {state : IdempotencyState} :
    Moves config p w (.running m state) (graphStep config m state o w).1
      (graphStep config m state o w).2 := by
  unfold graphStep
  split
  · split
    · exact .quiet (.releasing rfl _)
    · rename_i op _ r hr
      split
      · exact .quiet (.releasing rfl _)
      · rename_i r' hop
        exact .steered (Or.inr rfl) hr hop
  · exact .proposed
  · exact .audited
  · exact .quiet (.releasing rfl _)
  · unfold afterGraph
    split
    · exact .quiet ⟨fun k hk => hk, fun t ht => ht, fun m hm => hm⟩
    · split
      · exact .quiet (.releasing rfl _)
      · split
        · exact .quiet (.releasing rfl _)
        · exact .quiet (.releasing rfl _)

theorem terminate_moves {path : Path} {node : Option String} :
    Moves config p w (.terminating m path node) (terminate config m path node o w).1
      (terminate config m path node o w).2 := by
  unfold terminate
  split
  · exact .quiet (.afterTerminal m path node)
  · rename_i r hr
    split
    · exact .quiet (.afterTerminal m path node)
    · rename_i r' hterm
      exact .terminated hr hterm

/-- A call that raises ends as it does, and any other one goes on. -/
theorem of_raises {P : WorkerState → World → Prop} {raises : Prop} [Decidable raises]
    {ended : WorkerState × World} {next : Option (WorkerState × World)} {st' : WorkerState}
    (h : (if raises then some ended else next) = some (st', w')) (hended : P ended.1 ended.2)
    (hnext : next = some (st', w') → P st' w') : P st' w' := by
  split at h
  · cases h
    exact hended
  · exact hnext h

theorem recover_moves : Moves config p w (.recovering m) (recover config m) w := by
  unfold recover
  split
  · exact .quiet (.done _ _)
  · split <;> exact .quiet ⟨fun _ hk => hk, fun _ ht => ht, fun _ hm => hm⟩

theorem mending_moves {state : IdempotencyState} {st' : WorkerState}
    (h : step config p o w (.mending m state) = some (st', w')) :
    Moves config p w (.mending m state) st' w' := by
  simp only [step] at h
  split at h
  · rename_i r _ hr
    split at h
    · cases h
      exact .quiet (.releasing rfl _)
    · rename_i r' hop
      cases h
      exact .steered (.inl rfl) hr hop
  · refine of_raises h (.quiet (.releasing rfl _)) fun h => ?_
    cases h
    exact .quiet ⟨fun _ hk => hk, fun _ ht => ht, fun _ hm => hm⟩

/-- **What a call does**, by the state of its worker. -/
theorem step_moves {st' : WorkerState} (h : step config p o w st = some (st', w')) :
    Moves config p w st st' w' := by
  cases st with
  | idle => cases h
  | done result => cases h
  | recovering m =>
    cases h
    exact recover_moves
  | probing m n =>
    refine of_raises h (.quiet (.done _ _)) fun h => ?_
    split at h
    · cases h
      exact .quiet (.done _ _)
    · rename_i w₁ hacq
      cases h
      obtain ⟨hfree, rfl⟩ := acquire_true hacq
      exact .probed hfree
  | probed m n =>
    refine of_raises h (.quiet (.done _ _)) fun h => ?_
    cases h
    exact .released ⟨fun _ hk => hk, fun _ ht => ht, fun _ hm => hm⟩ rfl
  | acquiring m =>
    refine of_raises h (.quiet (.done _ _)) fun h => ?_
    split at h
    · cases h
      exact .quiet (.done _ _)
    · rename_i w₁ hacq
      cases h
      obtain ⟨hfree, rfl⟩ := acquire_true hacq
      exact .acquired hfree
  | beginning m =>
    refine of_raises h (.quiet (.releasing rfl _)) fun h => ?_
    split at h
    · cases h
      exact .quiet (.releasing rfl _)
    · rename_i d db hbegin
      cases h
      exact .began hbegin
  | reconciling m =>
    refine of_raises h (.quiet (.releasing rfl _)) fun h => ?_
    cases h
    unfold afterReconcile
    split <;> exact .quiet ⟨fun _ hk => hk, fun _ ht => ht, fun _ hm => hm⟩
  | starting m =>
    simp only [step] at h
    split at h
    · cases h
      exact .quiet (.releasing rfl _)
    · rename_i db hmark
      cases h
      exact .started hmark
  | loading m state =>
    refine of_raises h (.quiet (.releasing rfl _)) fun h => ?_
    cases h
    exact .quiet ⟨fun _ hk => hk, fun _ ht => ht, fun _ hm => hm⟩
  | mending m state => exact mending_moves h
  | running m state =>
    obtain ⟨rfl, rfl⟩ := Prod.mk.inj (Option.some.inj h)
    exact graphStep_moves
  | looking m path =>
    refine of_raises h (.quiet (.abortPath rfl path)) fun h => ?_
    split at h
    · cases h
      exact .quiet (.terminalFailure rfl path)
    · cases h
      exact .quiet ⟨fun _ hk => hk, fun _ ht => ht, fun _ hm => hm⟩
  | terminating m path node =>
    obtain ⟨rfl, rfl⟩ := Prod.mk.inj (Option.some.inj h)
    exact terminate_moves
  | recording m path =>
    simp only [step] at h
    split at h
    · cases h
      exact .quiet (.abortPath rfl path)
    · rename_i db hmark
      cases h
      exact .recorded hmark
  | publishing m path =>
    refine of_raises h (.quiet (.releasing rfl _)) fun h => ?_
    cases h
    exact .quiet ⟨fun _ hk => hk, fun _ ht => ht, fun _ hm => hm⟩
  | handling m path =>
    refine of_raises h (.quiet (.releasing rfl _)) fun h => ?_
    cases h
    exact .quiet ⟨fun _ hk => hk, fun _ ht => ht, fun _ hm => hm⟩
  | appending m n =>
    refine of_raises h (.quiet (.done _ _)) fun h => ?_
    cases h
    exact .appended
  | acking m path =>
    refine of_raises h (.quiet (.abortPath rfl path)) fun h => ?_
    cases path with
    | deadLetter n =>
      cases h
      exact .acked (.done _ _)
    | _ =>
      cases h
      exact .acked (.releasing rfl _)
  | releasing m result =>
    refine of_raises h (.quiet (.done _ _)) fun h => ?_
    cases h
    exact .released (.done _ _) rfl

end WorkerState

end CountyFlow.Worker
