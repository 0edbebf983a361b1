import Mathlib.Data.List.Basic
import Mathlib.Data.Nat.Notation

/-!
# Runtime threads and their repository

A dispatch task runs as one *runtime thread*: a row of `runtime_threads` that points at the
canonical checkpoint of the graph, and its append-only rows of `runtime_thread_events`.  This file
translates `SqlAlchemyRuntimeThreadRepository`.  Each method is one transaction on the two tables,
so it is a function from the thread's record to the record after the commit, or to the exception it
raises; an exception rolls the transaction back.

Two kinds of update occur in the source.  `_claim_boundary` and `release_override_boundary` are
single conditional `UPDATE` statements.  The others load the row through the ORM and commit it under
the version column `row_version`; `commits` says whether that commit goes through, and is `false`
when another transaction changed the row in between (`StaleDataError`) or the database refused it.
-/

namespace CountyFlow.Runtime

inductive RuntimeThreadStatus where
  | running
  | stable
  | overriding
  | terminal
  deriving DecidableEq, Repr

inductive RuntimeThreadEventType where
  | threadCreated
  | checkpointStaged
  | checkpointPromoted
  | threadResumed
  | threadTerminal
  | reconciliation
  | error
  | runtimeOverrideApplied
  deriving DecidableEq, Repr

/-- The two event types a promotion is recorded under: the default of `PromoteCheckpoint`, which
the runner keeps, and the one the reconciler passes. -/
inductive PromotionEvent where
  | checkpointPromoted
  | reconciliation
  deriving DecidableEq, Repr

def PromotionEvent.eventType : PromotionEvent → RuntimeThreadEventType
  | .checkpointPromoted => .checkpointPromoted
  | .reconciliation => .reconciliation

/-- A row of `runtime_threads`, which is also what `RuntimeThreadSnapshot` copies. -/
structure RuntimeThread where
  threadId : String
  taskId : String
  status : RuntimeThreadStatus
  currentCheckpointId : Option String
  stateVersion : ℕ
  currentNode : Option String
  nextNode : Option String
  checkpointCount : ℕ
  checkpointSizeBytes : Option ℕ
  lastEventSequence : Option ℕ
  workerConsumer : Option String
  resumedCount : ℕ
  terminalAt : Option ℕ
  rowVersion : ℕ
  deriving DecidableEq, Repr

structure RuntimeThreadEvent where
  eventKey : String
  eventType : RuntimeThreadEventType
  checkpointId : Option String
  parentCheckpointId : Option String
  stateVersion : ℕ
  node : Option String
  nextNode : Option String
  checkpointSizeBytes : Option ℕ
  workerConsumer : Option String
  errorCode : Option String
  deriving DecidableEq, Repr

structure PromoteCheckpoint where
  threadId : String
  expectedCheckpointId : Option String
  expectedStateVersion : ℕ
  checkpointId : String
  parentCheckpointId : Option String
  node : String
  nextNode : Option String
  checkpointSizeBytes : ℕ
  workerConsumer : String
  eventKey : String
  eventType : PromotionEvent
  deriving DecidableEq, Repr

inductive RuntimeThreadError where
  | threadVersionConflict (message : String)
  | boundaryClaimConflict (code : String)
  | lookupError (threadId : String)
  | databaseError
  deriving DecidableEq, Repr

def RuntimeThreadError.code : RuntimeThreadError → String
  | .threadVersionConflict message => message
  | .boundaryClaimConflict code => code
  | .lookupError threadId => threadId
  | .databaseError => "DatabaseError"

/-- One thread in both tables: its row, and its events in the order of their ids. -/
structure ThreadRecord where
  row : RuntimeThread
  events : List RuntimeThreadEvent
  deriving DecidableEq, Repr

variable {t t' : ThreadRecord} {c n w key : String} {v : ℕ} {commits : Bool}

namespace ThreadRecord

/-- `_event_by_key` finds an event; `(thread_id, event_key)` is unique. -/
def hasEvent (t : ThreadRecord) (eventKey : String) : Bool :=
  t.events.any fun e => e.eventKey == eventKey

/-- The rows `IdempotencyService.begin` and `create_for_task` insert for a task. -/
def create (taskId threadId : String) : ThreadRecord where
  row :=
    { threadId := threadId, taskId := taskId, status := .running, currentCheckpointId := none
      stateVersion := 0, currentNode := none, nextNode := some "intake", checkpointCount := 0
      checkpointSizeBytes := none, lastEventSequence := none, workerConsumer := none
      resumedCount := 0, terminalAt := none, rowVersion := 1 }
  events :=
    [{ eventKey := "thread:created", eventType := .threadCreated, checkpointId := none
       parentCheckpointId := none, stateVersion := 0, node := none, nextNode := none
       checkpointSizeBytes := none, workerConsumer := none, errorCode := none }]

/-- The tuple both conditional updates compare. -/
def atBoundary (t : ThreadRecord) (status : RuntimeThreadStatus) (checkpointId : String)
    (stateVersion : ℕ) (nextNode : String) : Bool :=
  t.row.status = status ∧ t.row.currentCheckpointId = some checkpointId ∧
    t.row.stateVersion = stateVersion ∧ t.row.nextNode = some nextNode

def claimed (t : ThreadRecord) (targetStatus : RuntimeThreadStatus) (workerConsumer : Option String) :
    ThreadRecord where
  row :=
    { t.row with
      status := targetStatus
      rowVersion := t.row.rowVersion + 1
      workerConsumer := workerConsumer.orElse fun _ => t.row.workerConsumer }
  events := t.events

def released (t : ThreadRecord) : ThreadRecord where
  row := { t.row with status := .stable, rowVersion := t.row.rowVersion + 1 }
  events := t.events

def claimBoundary (t : ThreadRecord) (expectedCheckpointId : String) (expectedStateVersion : ℕ)
    (expectedNextNode : String) (targetStatus : RuntimeThreadStatus)
    (workerConsumer : Option String) : Except RuntimeThreadError ThreadRecord :=
  if t.atBoundary .stable expectedCheckpointId expectedStateVersion expectedNextNode then
    .ok (t.claimed targetStatus workerConsumer)
  else .error (.boundaryClaimConflict "RUNTIME_BOUNDARY_CLAIM_CONFLICT")

def claimOverrideBoundary (t : ThreadRecord) (expectedCheckpointId : String)
    (expectedStateVersion : ℕ) (expectedNextNode : String) : Except RuntimeThreadError ThreadRecord :=
  t.claimBoundary expectedCheckpointId expectedStateVersion expectedNextNode .overriding none

def claimNextNode (t : ThreadRecord) (expectedCheckpointId : String) (expectedStateVersion : ℕ)
    (expectedNextNode : String) (workerConsumer : String) :
    Except RuntimeThreadError ThreadRecord :=
  t.claimBoundary expectedCheckpointId expectedStateVersion expectedNextNode .running
    (some workerConsumer)

def releaseOverrideBoundary (t : ThreadRecord) (expectedCheckpointId : String)
    (expectedStateVersion : ℕ) (expectedNextNode : String) : Except RuntimeThreadError ThreadRecord :=
  if t.atBoundary .overriding expectedCheckpointId expectedStateVersion expectedNextNode then
    .ok t.released
  else .error (.boundaryClaimConflict "RUNTIME_BOUNDARY_RELEASE_CONFLICT")

def checkpointEvent (command : PromoteCheckpoint) : RuntimeThreadEvent where
  eventKey := command.eventKey
  eventType := command.eventType.eventType
  checkpointId := some command.checkpointId
  parentCheckpointId := command.parentCheckpointId
  stateVersion := command.expectedStateVersion + 1
  node := some command.node
  nextNode := command.nextNode
  checkpointSizeBytes := some command.checkpointSizeBytes
  workerConsumer := some command.workerConsumer
  errorCode := none

def promoted (t : ThreadRecord) (command : PromoteCheckpoint) : ThreadRecord where
  row :=
    { t.row with
      currentCheckpointId := some command.checkpointId
      stateVersion := t.row.stateVersion + 1
      currentNode := some command.node
      nextNode := command.nextNode
      checkpointCount := t.row.checkpointCount + 1
      checkpointSizeBytes := some command.checkpointSizeBytes
      workerConsumer := some command.workerConsumer
      status := .stable
      rowVersion := t.row.rowVersion + 1 }
  events := t.events ++ [checkpointEvent command]

/-- `promote_checkpoint`.  A command for the checkpoint that is already canonical returns at once,
whatever else it carries; the status is not compared. -/
def promoteCheckpoint (t : ThreadRecord) (command : PromoteCheckpoint) (commits : Bool) :
    Except RuntimeThreadError ThreadRecord :=
  if t.row.currentCheckpointId = some command.checkpointId then .ok t
  else if t.row.status = .terminal then
    .error (.threadVersionConflict "Terminal runtime thread cannot advance.")
  else if t.row.currentCheckpointId ≠ command.expectedCheckpointId ∨
      t.row.stateVersion ≠ command.expectedStateVersion then
    .error (.threadVersionConflict "Runtime thread checkpoint compare-and-swap failed.")
  else if t.hasEvent command.eventKey ∨ commits = false then
    .error (.threadVersionConflict "Runtime thread checkpoint compare-and-swap failed.")
  else .ok (t.promoted command)

def markResumed (t : ThreadRecord) (eventKey workerConsumer : String) (commits : Bool) :
    Except RuntimeThreadError ThreadRecord :=
  if t.row.status = .terminal then .ok t
  else if t.hasEvent eventKey then .ok t
  else if commits = false then .error .databaseError
  else .ok
    { row :=
        { t.row with
          resumedCount := t.row.resumedCount + 1
          workerConsumer := some workerConsumer
          rowVersion := t.row.rowVersion + 1 }
      events := t.events ++
        [{ eventKey := eventKey, eventType := .threadResumed
           checkpointId := t.row.currentCheckpointId, parentCheckpointId := none
           stateVersion := t.row.stateVersion, node := t.row.currentNode
           nextNode := t.row.nextNode, checkpointSizeBytes := none
           workerConsumer := some workerConsumer, errorCode := none }] }

/-- The record after `mark_terminal` went through. -/
def terminated (t : ThreadRecord) (eventKey workerConsumer : String) (currentNode : Option String)
    (errorCode : Option String) (now : ℕ) : ThreadRecord where
  row :=
    { t.row with
      status := .terminal
      currentNode := currentNode
      nextNode := none
      workerConsumer := some workerConsumer
      terminalAt := some now
      rowVersion := t.row.rowVersion + 1 }
  events := t.events ++
    [{ eventKey := eventKey, eventType := .threadTerminal
       checkpointId := t.row.currentCheckpointId, parentCheckpointId := none
       stateVersion := t.row.stateVersion, node := currentNode, nextNode := none
       checkpointSizeBytes := none, workerConsumer := some workerConsumer
       errorCode := errorCode }]

/-- `mark_terminal`.  Unlike `mark_resumed` it asks only for the event key, not for the status. -/
def markTerminal (t : ThreadRecord) (eventKey workerConsumer : String) (currentNode : Option String)
    (errorCode : Option String) (now : ℕ) (commits : Bool) :
    Except RuntimeThreadError ThreadRecord :=
  if t.hasEvent eventKey then .ok t
  else if commits = false then .error .databaseError
  else .ok (t.terminated eventKey workerConsumer currentNode errorCode now)

/-! ### What each method can do -/

theorem atBoundary_iff {status : RuntimeThreadStatus}
    : t.atBoundary status c v n = true ↔
      t.row.status = status ∧ t.row.currentCheckpointId = some c ∧ t.row.stateVersion = v ∧
        t.row.nextNode = some n := by
  simp [atBoundary]

theorem claimBoundary_ok {target : RuntimeThreadStatus} {w : Option String}
    (h : t.claimBoundary c v n target w = .ok t') :
    t.atBoundary .stable c v n = true ∧ t' = t.claimed target w := by
  unfold claimBoundary at h
  split at h
  · rename_i hb
    exact ⟨hb, (Except.ok.inj h).symm⟩
  · cases h

theorem releaseOverrideBoundary_ok (h : t.releaseOverrideBoundary c v n = .ok t') :
    t.atBoundary .overriding c v n = true ∧ t' = t.released := by
  unfold releaseOverrideBoundary at h
  split at h
  · rename_i hb
    exact ⟨hb, (Except.ok.inj h).symm⟩
  · cases h

theorem promoteCheckpoint_ok {command : PromoteCheckpoint}
    (h : t.promoteCheckpoint command commits = .ok t') :
    (t.row.currentCheckpointId = some command.checkpointId ∧ t' = t) ∨
      (t.row.currentCheckpointId ≠ some command.checkpointId ∧ t.row.status ≠ .terminal ∧
        t.row.currentCheckpointId = command.expectedCheckpointId ∧
        t.row.stateVersion = command.expectedStateVersion ∧
        t.hasEvent command.eventKey = false ∧ commits = true ∧ t' = t.promoted command) := by
  unfold promoteCheckpoint at h
  split at h
  · rename_i hc
    exact .inl ⟨hc, (Except.ok.inj h).symm⟩
  · rename_i hc
    split at h
    · cases h
    · rename_i hs
      split at h
      · cases h
      · rename_i hcas
        split at h
        · cases h
        · rename_i hev
          rw [not_or, not_ne_iff, not_ne_iff] at hcas
          rw [not_or, Bool.not_eq_true] at hev
          exact .inr ⟨hc, hs, hcas.1, hcas.2, hev.1, by simpa using hev.2,
            (Except.ok.inj h).symm⟩

theorem markResumed_ok (h : t.markResumed key w commits = .ok t') :
    t' = t ∨ (t.row.status ≠ .terminal ∧ t.hasEvent key = false ∧
      t'.row = { t.row with
        resumedCount := t.row.resumedCount + 1
        workerConsumer := some w
        rowVersion := t.row.rowVersion + 1 } ∧
      ∃ e : RuntimeThreadEvent, e.eventType = .threadResumed ∧ t'.events = t.events ++ [e]) := by
  unfold markResumed at h
  split at h
  · exact .inl (Except.ok.inj h).symm
  · rename_i hs
    split at h
    · exact .inl (Except.ok.inj h).symm
    · rename_i hev
      split at h
      · cases h
      · rw [← Except.ok.inj h]
        exact .inr ⟨hs, by simpa using hev, rfl, _, rfl, rfl⟩

theorem markTerminal_ok {node code : Option String} {now : ℕ}
    (h : t.markTerminal key w node code now commits = .ok t') :
    (t.hasEvent key = true ∧ t' = t) ∨
      (t.hasEvent key = false ∧ commits = true ∧ t' = t.terminated key w node code now) := by
  unfold markTerminal at h
  split at h
  · rename_i hev
    exact .inl ⟨hev, (Except.ok.inj h).symm⟩
  · rename_i hev
    split at h
    · cases h
    · rename_i hc
      exact .inr ⟨by simpa using hev, by simpa using hc, (Except.ok.inj h).symm⟩

end ThreadRecord

end CountyFlow.Runtime
