import CountyFlow.Override.Service

/-!
# The processes beside the applying call

`RuntimeOverrideReconciler.reconcile` finishes a `PARTIAL` override from what the ledger recorded.
A worker run is `DispatchWorker._runtime_thread` followed by the graph part of `_process_graph`:
`ThreadCheckpointReconciler.reconcile` on the snapshot it read, `claim_next_node` on a `STABLE`
thread, and the stream of `CheckpointedGraphRunner._run`, which promotes the checkpoint of every
node.  Both are state machines whose steps are single repository or store calls.

A listing of the store, like everything the graph does, comes from outside and is part of the step's
outcome; only listings the store contains are admitted.
-/

namespace CountyFlow.Override

open CountyFlow.Lib CountyFlow.Core CountyFlow.Runtime

/-! ### The override reconciler -/

/-- A point of `RuntimeOverrideReconciler.reconcile` between two calls. -/
inductive ReconcileState where
  | idle
  | fetching (overrideId : String)
  | comparing (item : RuntimeOverride)
  | loadingSource (item : RuntimeOverride) (sourceId resultId : String)
  | loadingResult (item : RuntimeOverride) (source : Option CheckpointRecord) (resultId : String)
  | promoting (item : RuntimeOverride) (result : CheckpointRecord)
  | closing (overrideId : String) (write : Closing)
  | done (result : ApplyResult)
  | crashed
  deriving DecidableEq, Repr

namespace ReconcileState

/-- `get`: only a `PARTIAL` row is taken further. -/
def fetch (overrideId : String) (db : Db) : ReconcileState :=
  match db.ledger.find overrideId with
  | none => .done (.raised overrideId)
  | some item => if item.status = .partiallyDone then .comparing item else .done (.returned item false)

def invalid (overrideId code : String) : ReconcileState := .closing overrideId (.markPartial code)

def conflict (overrideId : String) : ReconcileState :=
  .closing overrideId (.conflict "RUNTIME_STATE_VERSION_CONFLICT")

/-- The thread must still be fenced at the recorded source and version. -/
def compare (item : RuntimeOverride) (db : Db) : ReconcileState :=
  match db.threads item.threadId with
  | none => conflict item.overrideId
  | some thread =>
    if thread.row.status ≠ .overriding ∨
        thread.row.currentCheckpointId ≠ item.sourceCheckpointId ∨
        thread.row.stateVersion ≠ item.expectedVersion then conflict item.overrideId
    else match item.sourceCheckpointId, item.resultCheckpointId with
      | some sourceId, some resultId => .loadingSource item sourceId resultId
      | _, _ => invalid item.overrideId "RUNTIME_OVERRIDE_RESULT_MISSING"

def storeError : ReconcileState := .done (.raised "CHECKPOINT_STORE_UNAVAILABLE")

/-- `get_exact` of the source. -/
def loadSource (item : RuntimeOverride) (sourceId resultId : String) (o : Outcome) (db : Db) :
    ReconcileState :=
  if o.storeAvailable = false then storeError
  else .loadingResult item (db.store (item.threadId, sourceId)) resultId

/-- `get_exact` of the result, and `_valid`. -/
def loadResult (config : RuntimeConfig) (item : RuntimeOverride) (source : Option CheckpointRecord)
    (resultId : String) (o : Outcome) (db : Db) : ReconcileState :=
  if o.storeAvailable = false then storeError
  else match source, db.store (item.threadId, resultId) with
    | some source, some result =>
      if candidateValid config.maxCheckpointBytes item source result then .promoting item result
      else invalid item.overrideId "RUNTIME_OVERRIDE_RESULT_INVALID"
    | _, _ => invalid item.overrideId "RUNTIME_OVERRIDE_RESULT_MISSING"

/-- `promote_applied`. -/
def promote (item : RuntimeOverride) (result : CheckpointRecord) (o : Outcome) (db : Db) :
    ReconcileState × Db :=
  match db.promoteApplied item.overrideId result.checkpointId result.serializedSizeBytes o.now
      o.commits with
  | .error .threadVersionConflict => (conflict item.overrideId, db)
  | .error e => (.done (.raised e.code), db)
  | .ok (row, db') => (.done (.returned row false), db')

/-- `finish` or `mark_partial`. -/
def close (overrideId : String) (write : Closing) (o : Outcome) (db : Db) : ReconcileState × Db :=
  match db.close overrideId write o.now with
  | .error e => (.done (.raised e.code), db)
  | .ok (row, db') => (.done (.returned row false), db')

/-- One call of `reconcile`; `none` when it is over. -/
def step (config : RuntimeConfig) (o : Outcome) (db : Db) :
    ReconcileState → Option (ReconcileState × Db)
  | .idle | .done _ | .crashed => none
  | .fetching overrideId => some (fetch overrideId db, db)
  | .comparing item => some (compare item db, db)
  | .loadingSource item sourceId resultId => some (loadSource item sourceId resultId o db, db)
  | .loadingResult item source resultId => some (loadResult config item source resultId o db, db)
  | .promoting item result => some (promote item result o db)
  | .closing overrideId write => some (close overrideId write o db)

end ReconcileState

/-! ### A worker run -/

/-- A point of a worker run between two calls.  `resumeKey` is the event key of `mark_resumed`
while `mark_resume` is still set. -/
inductive WorkerState where
  | idle
  | fetching (threadId : String)
  | listing (thread : RuntimeThread)
  | reconciling (command : PromoteCheckpoint)
  | deciding (thread : RuntimeThread)
  | streaming (current : RuntimeThread) (resumeKey : Option String)
  | resuming (current : RuntimeThread) (resumeKey : String) (nodes : List String)
  | visiting (current : RuntimeThread) (nodes : List String)
  | promoting (command : PromoteCheckpoint) (nodes : List String)
  | finished
  deriving DecidableEq, Repr

/-- What the world contributes to a worker's step: a listing of the store, the nodes of the next
stream update (`none` at the end of the stream), whether a commit goes through, and whether
`_latest_boundary` still has time to poll. -/
structure WorkerOutcome where
  listing : List CheckpointRecord
  update : Option (List String)
  commits : Bool
  polls : Bool
  reconciles : Bool
  deriving DecidableEq, Repr

/-- The consumer name and the settings of a worker. -/
structure WorkerConfig where
  runtime : RuntimeConfig
  consumerName : String
  resumeKey : String
  deriving Repr

namespace WorkerState

/-- `get_by_task_id`; without a thread the graph runs without checkpoints. -/
def fetch (threadId : String) (db : Db) : WorkerState :=
  match db.threads threadId with
  | none => .finished
  | some thread => .listing thread.row

/-- `ThreadCheckpointReconciler.reconcile` up to the promotion. -/
def list (config : WorkerConfig) (thread : RuntimeThread) (o : WorkerOutcome) : WorkerState :=
  if o.reconciles = false ∨ thread.status = .terminal ∨ thread.nextNode = none then .deciding thread
  else match reconcileCandidate config.runtime thread o.listing config.consumerName with
    | .error _ => .finished
    | .ok none => .deciding thread
    | .ok (some command) => .reconciling command

/-- `promote_checkpoint` of the reconciler. -/
def reconcile (command : PromoteCheckpoint) (o : WorkerOutcome) (db : Db) : WorkerState × Db :=
  match db.promoteCheckpoint command o.commits with
  | .error _ => (.finished, db)
  | .ok (row, db') => (.deciding row, db')

/-- `resume` refuses a terminal thread. -/
def resume (config : WorkerConfig) (thread : RuntimeThread) (checkpointId : String) : WorkerState :=
  if thread.status = .terminal then .finished
  else .streaming thread (some ("resume:" ++ checkpointId ++ ":" ++ config.resumeKey))

/-- `_process_graph` before the stream: a new run, a claim of a `STABLE` boundary, or a resume
without a claim. -/
def decide (config : WorkerConfig) (thread : RuntimeThread) (db : Db) : WorkerState × Db :=
  match thread.currentCheckpointId with
  | none => (.streaming thread none, db)
  | some checkpointId =>
    if thread.status = .stable then
      match thread.nextNode with
      | none => (.finished, db)
      | some nextNode =>
        match db.claimNextNode thread.threadId checkpointId thread.stateVersion nextNode
            config.consumerName with
        | .error _ => (.finished, db)
        | .ok (row, db') => (resume config row (row.currentCheckpointId.getD ""), db')
    else (resume config thread checkpointId, db)

/-- The next update of the stream, restricted to the nodes of the graph. -/
def stream (current : RuntimeThread) (resumeKey : Option String) (o : WorkerOutcome) : WorkerState :=
  match o.update, resumeKey with
  | none, _ => .finished
  | some nodes, none => .visiting current (nodes.filter (· ∈ nodeOrder))
  | some nodes, some key => .resuming current key (nodes.filter (· ∈ nodeOrder))

/-- `mark_resumed` answers with the row as it is now. -/
def markResumed (config : WorkerConfig) (current : RuntimeThread) (key : String)
    (nodes : List String) (o : WorkerOutcome) (db : Db) : WorkerState × Db :=
  match db.markResumed current.threadId key config.consumerName o.commits with
  | .error _ => (.finished, db)
  | .ok (row, db') => (.visiting row nodes, db')

/-- One poll of `_latest_boundary` for the next node, and the checks of `_promote`. -/
def visit (config : WorkerConfig) (current : RuntimeThread) (nodes : List String)
    (o : WorkerOutcome) : WorkerState :=
  match nodes with
  | [] => .streaming current none
  | node :: rest =>
    match latestBoundary current node o.listing with
    | none => if o.polls then .visiting current nodes else .finished
    | some record =>
      match runnerCommand config.runtime current record node config.consumerName with
      | .error _ => .finished
      | .ok command => .promoting command rest

/-- `promote_checkpoint` of the runner. -/
def promote (command : PromoteCheckpoint) (nodes : List String) (o : WorkerOutcome) (db : Db) :
    WorkerState × Db :=
  match db.promoteCheckpoint command o.commits with
  | .error _ => (.finished, db)
  | .ok (row, db') => (.visiting row nodes, db')

/-- A listing `list_bounded` can answer with: records the store holds for the thread. -/
def listed (db : Db) (threadId : String) (records : List CheckpointRecord) : Bool :=
  records.all fun record =>
    record.threadId = threadId ∧ db.store (threadId, record.checkpointId) = some record

/-- One call of a worker run; `none` when it is over, or when the outcome proposes a listing the
store cannot answer with. -/
def step (config : WorkerConfig) (o : WorkerOutcome) (db : Db) :
    WorkerState → Option (WorkerState × Db)
  | .idle | .finished => none
  | .fetching threadId => some (fetch threadId db, db)
  | .listing thread =>
    if listed db thread.threadId o.listing then some (list config thread o, db) else none
  | .reconciling command => some (reconcile command o db)
  | .deciding thread => some (decide config thread db)
  | .streaming current resumeKey => some (stream current resumeKey o, db)
  | .resuming current key nodes => some (markResumed config current key nodes o db)
  | .visiting current nodes =>
    if listed db current.threadId o.listing then some (visit config current nodes o, db) else none
  | .promoting command nodes => some (promote command nodes o db)

end WorkerState

end CountyFlow.Override
