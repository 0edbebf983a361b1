import CountyFlow.Lib.Runs
import CountyFlow.Override.Reconciler

/-!
# The system of overrides and workers

Any number of `apply` calls, override reconciliations and worker runs share one database, the locks
and the checkpoint store.  An action names the process that moves and what the world contributes, so
a run is a list of actions; processes interleave, crash between any two calls, locks expire, graphs
save checkpoints and threads are created and terminated at any time.
-/

namespace CountyFlow.Override

open CountyFlow.Lib CountyFlow.Core CountyFlow.Runtime Function

/-- The whole state: the database, the boundary locks and every process. -/
structure System where
  db : Db
  locks : Locks
  calls : ℕ → ApplyState
  reconciles : ℕ → ReconcileState
  workers : ℕ → WorkerState

inductive Action where
  | beginApply (c : ℕ) (input : ApplyInput)
  | advance (c : ℕ) (o : Outcome)
  | crash (c : ℕ)
  | expireLock (threadId : String)
  | beginReconcile (r : ℕ) (overrideId : String)
  | advanceReconcile (r : ℕ) (o : Outcome)
  | crashReconcile (r : ℕ)
  | beginWorker (w : ℕ) (threadId : String)
  | advanceWorker (w : ℕ) (o : WorkerOutcome)
  | crashWorker (w : ℕ)
  | saveCheckpoint (record : CheckpointRecord)
  | createThread (taskId threadId : String)
  | terminate (threadId eventKey workerConsumer : String) (currentNode errorCode : Option String)
      (now : ℕ) (commits : Bool)
  deriving DecidableEq, Repr

/-- The actions of calls and reconciliations, and of the locks; the others are those of workers. -/
def Action.overrides : Action → Bool
  | .beginApply _ _ | .advance _ _ | .crash _ | .expireLock _ | .beginReconcile _ _
  | .advanceReconcile _ _ | .crashReconcile _ => true
  | .beginWorker _ _ | .advanceWorker _ _ | .crashWorker _ | .saveCheckpoint _ | .createThread _ _
  | .terminate _ _ _ _ _ _ _ => false

/-- A call that has begun and neither ended nor crashed. -/
def ApplyState.live : ApplyState → Bool
  | .idle | .done _ | .crashed => false
  | _ => true

/-- A reconciliation that has begun and neither ended nor crashed. -/
def ReconcileState.live : ReconcileState → Bool
  | .idle | .done _ | .crashed => false
  | _ => true

namespace System

variable (config : WorkerConfig)

/-- The state after an action, `none` when it is not enabled. -/
def step (s : System) : Action → Option System
  | .beginApply c input =>
    if s.calls c = .idle then
      some { s with calls := update s.calls c (.entered input) }
    else none
  | .advance c o =>
    (ApplyState.step config.runtime c o s.db s.locks (s.calls c)).map fun (st, db, locks) =>
      { s with db := db, locks := locks, calls := update s.calls c st }
  | .crash c =>
    if (s.calls c).live then some { s with calls := update s.calls c .crashed } else none
  | .expireLock threadId => some { s with locks := update s.locks threadId none }
  | .beginReconcile r overrideId =>
    if s.reconciles r = .idle then
      some { s with reconciles := update s.reconciles r (.fetching overrideId) }
    else none
  | .advanceReconcile r o =>
    (ReconcileState.step config.runtime o s.db (s.reconciles r)).map fun (st, db) =>
      { s with db := db, reconciles := update s.reconciles r st }
  | .crashReconcile r =>
    if (s.reconciles r).live then
      some { s with reconciles := update s.reconciles r .crashed }
    else none
  | .beginWorker w threadId =>
    if s.workers w = .idle then
      some { s with workers := update s.workers w (.fetching threadId) }
    else none
  | .advanceWorker w o =>
    (WorkerState.step config o s.db (s.workers w)).map fun (st, db) =>
      { s with db := db, workers := update s.workers w st }
  | .crashWorker w => some { s with workers := update s.workers w .finished }
  | .saveCheckpoint record => (s.db.saveCheckpoint record).map fun db => { s with db := db }
  | .createThread taskId threadId =>
    (s.db.createThread taskId threadId).map fun db => { s with db := db }
  | .terminate threadId key consumer node code now commits =>
    ((s.db.markTerminal threadId key consumer node code now commits).map fun (_, db) =>
      { s with db := db }).toOption

end System

end CountyFlow.Override
