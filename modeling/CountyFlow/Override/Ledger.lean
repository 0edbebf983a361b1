import CountyFlow.Lib.Table
import CountyFlow.Runtime.Thread

/-!
# The override ledger

A runtime override is a durable command: one row of `runtime_overrides`, reserved under its
idempotency key before anything happens and carried through
`PENDING → APPLYING → APPLIED`, or into `REJECTED`, `CONFLICT`, `FAILED` or `PARTIAL`.  This file
translates the methods of `SqlAlchemyRuntimeOverrideRepository` that the service and the reconciler
call.  Each is one transaction: a function on the row (for `promote_applied` on the row and the
thread), or the exception it raises.

The payload fingerprint is a hash of the fingerprint dictionary; it is modelled by that dictionary.
The rows of `runtime_override_attempts` repeat what the ledger row records and are read by nothing
here, so they are left out.
-/

namespace CountyFlow.Override

open CountyFlow.Lib CountyFlow.Runtime

inductive RuntimeOverrideStatus where
  | pending
  | applying
  | applied
  | rejected
  | conflict
  | partiallyDone
  | failed
  deriving DecidableEq, Repr

inductive RuntimeOverrideDecision where
  | allowed
  | rejected
  | needsDifferentBoundary
  deriving DecidableEq, Repr

/-- The statuses `finish` accepts; any other argument is a `ValueError`. -/
inductive FinalStatus where
  | rejected
  | conflict
  | failed
  deriving DecidableEq, Repr

def FinalStatus.status : FinalStatus → RuntimeOverrideStatus
  | .rejected => .rejected
  | .conflict => .conflict
  | .failed => .failed

def RuntimeOverrideStatus.final : RuntimeOverrideStatus → Bool
  | .applied | .rejected | .conflict | .failed => true
  | .pending | .applying | .partiallyDone => false

/-- `to_fingerprint_dict`, standing for its hash. -/
structure Fingerprint where
  threadId : String
  entityType : String
  entityId : String
  field : String
  oldValue : String
  newValue : String
  reason : String
  expectedVersion : ℕ
  expectedNextNode : Option String
  deriving DecidableEq, Repr

/-- `RuntimeOverrideCommand`, without the permissions it copies from the principal. -/
structure RuntimeOverrideCommand where
  overrideId : String
  idempotencyKey : String
  threadId : String
  entityType : String
  entityId : String
  field : String
  oldValue : String
  newValue : String
  reason : String
  expectedVersion : ℕ
  expectedNextNode : Option String
  operatorId : String
  operatorRole : String
  requestedAt : ℕ
  deriving DecidableEq, Repr

/-- `payload_fingerprint`. -/
def RuntimeOverrideCommand.fingerprint (c : RuntimeOverrideCommand) : Fingerprint where
  threadId := c.threadId
  entityType := c.entityType
  entityId := c.entityId
  field := c.field
  oldValue := c.oldValue
  newValue := c.newValue
  reason := c.reason
  expectedVersion := c.expectedVersion
  expectedNextNode := c.expectedNextNode

/-- A row of `runtime_overrides`, which is also what `StoredRuntimeOverride` copies. -/
structure RuntimeOverride where
  overrideId : String
  threadId : String
  taskId : String
  operatorId : String
  operatorRole : String
  idempotencyKey : String
  payloadFingerprint : Fingerprint
  expectedVersion : ℕ
  expectedNextNode : Option String
  beforeStateVersion : Option ℕ
  afterStateVersion : Option ℕ
  entityType : String
  entityId : String
  fieldName : String
  oldValue : String
  newValue : String
  reason : String
  decision : Option RuntimeOverrideDecision
  status : RuntimeOverrideStatus
  sourceCheckpointId : Option String
  resultCheckpointId : Option String
  eventStatus : String
  intentExpiresAt : ℕ
  errorCode : Option String
  requestedAt : ℕ
  startedAt : Option ℕ
  completedAt : Option ℕ
  deriving DecidableEq, Repr

/-- The ledger: `override_id` is unique. -/
abbrev Ledger := Table RuntimeOverride RuntimeOverride.overrideId

inductive LedgerError where
  | idempotencyConflict
  | lookupError (id : String)
  | runtimeError (code : String)
  | integrityError
  | threadVersionConflict
  deriving DecidableEq, Repr

def LedgerError.code : LedgerError → String
  | .idempotencyConflict => "RUNTIME_OVERRIDE_IDEMPOTENCY_CONFLICT"
  | .lookupError id => id
  | .runtimeError code => code
  | .integrityError => "IntegrityError"
  | .threadVersionConflict => "Runtime override canonical promotion compare-and-swap failed."

namespace RuntimeOverride

/-- The row `begin_or_replay` inserts. -/
def reserve (c : RuntimeOverrideCommand) (taskId : String) (intentExpiresAt : ℕ) :
    RuntimeOverride where
  overrideId := c.overrideId
  threadId := c.threadId
  taskId := taskId
  operatorId := c.operatorId
  operatorRole := c.operatorRole
  idempotencyKey := c.idempotencyKey
  payloadFingerprint := c.fingerprint
  expectedVersion := c.expectedVersion
  expectedNextNode := c.expectedNextNode
  beforeStateVersion := none
  afterStateVersion := none
  entityType := c.entityType
  entityId := c.entityId
  fieldName := c.field
  oldValue := c.oldValue
  newValue := c.newValue
  reason := c.reason
  decision := none
  status := .pending
  sourceCheckpointId := none
  resultCheckpointId := none
  eventStatus := "PENDING"
  intentExpiresAt := intentExpiresAt
  errorCode := none
  requestedAt := c.requestedAt
  startedAt := none
  completedAt := none

def replay (row : RuntimeOverride) (c : RuntimeOverrideCommand) :
    Except LedgerError RuntimeOverride :=
  if row.operatorId ≠ c.operatorId ∨ row.payloadFingerprint ≠ c.fingerprint then
    .error .idempotencyConflict
  else .ok row

def markApplying (row : RuntimeOverride) (beforeStateVersion : ℕ) (sourceCheckpointId : String)
    (startedAt : ℕ) : Except LedgerError RuntimeOverride :=
  if row.status = .applying then .ok row
  else if row.status ≠ .pending then .error (.runtimeError "RUNTIME_OVERRIDE_INVALID_TRANSITION")
  else .ok
    { row with
      status := .applying
      decision := some .allowed
      beforeStateVersion := some beforeStateVersion
      sourceCheckpointId := some sourceCheckpointId
      startedAt := some startedAt }

def attachResultCheckpoint (row : RuntimeOverride) (checkpointId : String) :
    Except LedgerError RuntimeOverride :=
  if row.status ≠ .applying then .error (.runtimeError "RUNTIME_OVERRIDE_INVALID_TRANSITION")
  else if row.resultCheckpointId ≠ none ∧ row.resultCheckpointId ≠ some checkpointId then
    .error (.runtimeError "RUNTIME_OVERRIDE_RESULT_CONFLICT")
  else .ok { row with resultCheckpointId := some checkpointId }

/-- `finish`: only an `APPLIED` row is left alone. -/
def finish (row : RuntimeOverride) (status : FinalStatus) (decision : RuntimeOverrideDecision)
    (errorCode : String) (completedAt : ℕ) : RuntimeOverride :=
  if row.status = .applied then row
  else
    { row with
      status := status.status
      decision := some decision
      errorCode := some errorCode
      completedAt := some completedAt }

/-- `mark_partial`: only an `APPLIED` row is left alone. -/
def markPartial (row : RuntimeOverride) (errorCode : String) (completedAt : ℕ) : RuntimeOverride :=
  if row.status = .applied then row
  else
    { row with
      status := .partiallyDone
      errorCode := some errorCode
      completedAt := some completedAt }

def markEventStatus (row : RuntimeOverride) (eventStatus : String) : RuntimeOverride :=
  { row with eventStatus := eventStatus }

/-- The conditions under which `promote_applied` raises before it writes. -/
def promotable (row : RuntimeOverride) (thread : RuntimeThread) (resultCheckpointId : String) :
    Bool :=
  (row.status = .applying ∨ row.status = .partiallyDone) ∧
    row.resultCheckpointId = some resultCheckpointId ∧
    thread.status = .overriding ∧
    thread.currentCheckpointId = row.sourceCheckpointId ∧
    thread.stateVersion = row.expectedVersion ∧
    thread.nextNode = row.expectedNextNode

/-- The row after `promote_applied` went through. -/
def applyPromotion (row : RuntimeOverride) (stateVersion completedAt : ℕ) : RuntimeOverride :=
  { row with
    status := .applied
    afterStateVersion := some stateVersion
    completedAt := some completedAt
    errorCode := none }

end RuntimeOverride

/-- The thread after `promote_applied` went through, with its event unless it is already there. -/
def applyOverride (t : ThreadRecord) (row : RuntimeOverride) (resultCheckpointId : String)
    (checkpointSizeBytes : ℕ) : ThreadRecord where
  row :=
    { t.row with
      currentCheckpointId := some resultCheckpointId
      stateVersion := t.row.stateVersion + 1
      status := .stable
      checkpointSizeBytes := some checkpointSizeBytes
      rowVersion := t.row.rowVersion + 1 }
  events :=
    let eventKey := "override:" ++ row.overrideId ++ ":applied"
    if t.hasEvent eventKey then t.events
    else t.events ++
      [{ eventKey := eventKey, eventType := .runtimeOverrideApplied
         checkpointId := some resultCheckpointId
         parentCheckpointId := row.sourceCheckpointId
         stateVersion := t.row.stateVersion + 1, node := t.row.currentNode
         nextNode := t.row.nextNode, checkpointSizeBytes := some checkpointSizeBytes
         workerConsumer := t.row.workerConsumer, errorCode := none }]

/-- `promote_applied` on a row and its thread. -/
def promoteApplied (row : RuntimeOverride) (t : ThreadRecord) (resultCheckpointId : String)
    (checkpointSizeBytes completedAt : ℕ) (commits : Bool) :
    Except LedgerError (RuntimeOverride × ThreadRecord) :=
  if row.status = .applied then .ok (row, t)
  else if row.promotable t.row resultCheckpointId = false then .error .threadVersionConflict
  else if commits = false then .error .threadVersionConflict
  else .ok (row.applyPromotion (t.row.stateVersion + 1) completedAt,
    applyOverride t row resultCheckpointId checkpointSizeBytes)

/-! ### What the methods keep and what they change -/

variable {row row' : RuntimeOverride} {c : String}

namespace RuntimeOverride

/-- The columns no method writes after the reservation. -/
structure SameRequest (a b : RuntimeOverride) : Prop where
  overrideId : b.overrideId = a.overrideId
  threadId : b.threadId = a.threadId
  operatorId : b.operatorId = a.operatorId
  idempotencyKey : b.idempotencyKey = a.idempotencyKey
  payloadFingerprint : b.payloadFingerprint = a.payloadFingerprint
  expectedVersion : b.expectedVersion = a.expectedVersion
  expectedNextNode : b.expectedNextNode = a.expectedNextNode
  entityId : b.entityId = a.entityId
  oldValue : b.oldValue = a.oldValue
  newValue : b.newValue = a.newValue

theorem SameRequest.refl (a : RuntimeOverride) : SameRequest a a :=
  ⟨rfl, rfl, rfl, rfl, rfl, rfl, rfl, rfl, rfl, rfl⟩

theorem replay_ok {c : RuntimeOverrideCommand} (h : row.replay c = .ok row') :
    row' = row ∧ row.operatorId = c.operatorId ∧ row.payloadFingerprint = c.fingerprint := by
  unfold replay at h
  split at h
  · cases h
  · rename_i hne
    rw [not_or, not_ne_iff, not_ne_iff] at hne
    exact ⟨(Except.ok.inj h).symm, hne.1, hne.2⟩

theorem markApplying_ok {v : ℕ} {now : ℕ} (h : row.markApplying v c now = .ok row') :
    (row.status = .applying ∧ row' = row) ∨
      (row.status = .pending ∧ row' =
        { row with
          status := .applying
          decision := some .allowed
          beforeStateVersion := some v
          sourceCheckpointId := some c
          startedAt := some now }) := by
  unfold markApplying at h
  split at h
  · rename_i hs
    exact .inl ⟨hs, (Except.ok.inj h).symm⟩
  · split at h
    · cases h
    · rename_i hs
      exact .inr ⟨not_ne_iff.mp hs, (Except.ok.inj h).symm⟩

theorem attachResultCheckpoint_ok (h : row.attachResultCheckpoint c = .ok row') :
    row.status = .applying ∧ (row.resultCheckpointId = none ∨ row.resultCheckpointId = some c) ∧
      row' = { row with resultCheckpointId := some c } := by
  unfold attachResultCheckpoint at h
  split at h
  · cases h
  · rename_i hs
    split at h
    · cases h
    · rename_i hr
      refine ⟨not_ne_iff.mp hs, ?_, (Except.ok.inj h).symm⟩
      by_cases hnone : row.resultCheckpointId = none
      · exact .inl hnone
      · exact .inr (by_contra fun hne => hr ⟨hnone, hne⟩)

theorem promotable_iff {thread : RuntimeThread} :
    row.promotable thread c = true ↔
      (row.status = .applying ∨ row.status = .partiallyDone) ∧
        row.resultCheckpointId = some c ∧ thread.status = .overriding ∧
        thread.currentCheckpointId = row.sourceCheckpointId ∧
        thread.stateVersion = row.expectedVersion ∧ thread.nextNode = row.expectedNextNode := by
  simp [promotable]

end RuntimeOverride

theorem promoteApplied_ok {t t' : ThreadRecord} {size now : ℕ} {commits : Bool}
    (h : promoteApplied row t c size now commits = .ok (row', t')) :
    (row.status = .applied ∧ row' = row ∧ t' = t) ∨
      (row.promotable t.row c = true ∧ commits = true ∧
        row' = row.applyPromotion (t.row.stateVersion + 1) now ∧
        t' = applyOverride t row c size) := by
  unfold promoteApplied at h
  split at h
  · rename_i hs
    obtain ⟨h1, h2⟩ := Prod.mk.inj (Except.ok.inj h)
    exact .inl ⟨hs, h1.symm, h2.symm⟩
  · split at h
    · cases h
    · rename_i hp
      split at h
      · cases h
      · rename_i hc
        obtain ⟨h1, h2⟩ := Prod.mk.inj (Except.ok.inj h)
        exact .inr ⟨by simpa using hp, by simpa using hc, h1.symm, h2.symm⟩

end CountyFlow.Override
