import CountyFlow.Override.Database

/-!
# Applying an override

`RuntimeOverrideService._apply` as a state machine.  A state is the point between two repository
calls, with the locals that are still read, and one step makes the next call; so other calls, crashes
and workers can come between any two of them.  What the world contributes to a step (the clock, a
fresh id, the lock server, the checkpoint store, the state updater, the commit) is its `Outcome`.

`RuntimeOverrideReconciler.reconcile` is a second, smaller machine of the same kind.

The two `finally` actions of `_apply` are the states `leaving` (release the lock by its token) and
`inspecting`/`freeing` (take down a fence whose candidate was never created).
-/

namespace CountyFlow.Override

open CountyFlow.Lib CountyFlow.Core CountyFlow.Runtime

structure RuntimeOverrideRequest where
  idempotencyKey : String
  entityType : String
  entityId : String
  field : String
  oldValue : String
  newValue : String
  reason : String
  expectedVersion : ℕ
  expectedNextNode : Option String
  deriving DecidableEq, Repr

/-- The parts of `AuthenticatedPrincipal` the service reads. -/
structure AuthenticatedPrincipal where
  subjectId : String
  roles : List String
  permissions : List String
  deriving DecidableEq, Repr

structure ApplyInput where
  threadId : String
  request : RuntimeOverrideRequest
  principal : AuthenticatedPrincipal
  deriving DecidableEq, Repr

/-- `Permission.RUNTIME_OVERRIDE`. -/
def runtimeOverridePermission : String := "runtime:override"

/-- `intent_ttl`, in seconds. -/
def intentTtl : ℕ := 30

/-! ### The command -/

/-- `sorted(values)[0]`. -/
def sortedHead : List String → Option String
  | [] => none
  | v :: vs => some (vs.foldl (fun least x => if x < least then x else least) v)

/-- The texts `RuntimeOverrideCommand.__post_init__` bounds. -/
def RuntimeOverrideCommand.boundedText (c : RuntimeOverrideCommand) : List (String × String × ℕ) :=
  [("override_id", c.overrideId, 36), ("idempotency_key", c.idempotencyKey, 128),
    ("thread_id", c.threadId, 96), ("entity_type", c.entityType, 32), ("entity_id", c.entityId, 128),
    ("field", c.field, 64), ("reason", c.reason, 512), ("operator_id", c.operatorId, 128),
    ("operator_role", c.operatorRole, 64)]

/-- `RuntimeOverrideCommand.__post_init__`: the message of the `ValueError`, if any. -/
def RuntimeOverrideCommand.postInit (c : RuntimeOverrideCommand) : Except String Unit :=
  match c.boundedText.find? fun (_, value, limit) => value.length = 0 ∨ limit < value.length with
  | some (name, _, limit) =>
    .error (name ++ " must contain between 1 and " ++ toString limit ++ " characters")
  | none =>
    if c.expectedNextNode = some "" then
      .error "expected_next_node must be non-empty when provided"
    else .ok ()

/-- The command `_apply` builds before it validates itself. -/
def ApplyInput.command (input : ApplyInput) (overrideId operatorRole : String) (now : ℕ) :
    RuntimeOverrideCommand where
  overrideId := overrideId
  idempotencyKey := input.request.idempotencyKey
  threadId := input.threadId
  entityType := input.request.entityType
  entityId := input.request.entityId
  field := input.request.field
  oldValue := input.request.oldValue
  newValue := input.request.newValue
  reason := input.request.reason
  expectedVersion := input.request.expectedVersion
  expectedNextNode := input.request.expectedNextNode
  operatorId := input.principal.subjectId
  operatorRole := operatorRole
  requestedAt := now

/-- `RuntimeOverrideCommand(...)`, or the message of the exception it raises. -/
def ApplyInput.buildCommand (input : ApplyInput) (overrideId : String) (now : ℕ) :
    Except String RuntimeOverrideCommand :=
  match sortedHead input.principal.roles with
  | none => .error "list index out of range"
  | some role =>
    let command := input.command overrideId role now
    command.postInit.map fun _ => command

/-! ### The states of a call -/

/-- What a call ends with: the row it returns and its `replayed` flag, or an exception. -/
inductive ApplyResult where
  | returned (row : RuntimeOverride) (replayed : Bool)
  | raised (code : String)
  deriving DecidableEq, Repr

/-- The locals that stay after the reservation. -/
structure ApplyContext where
  threadId : String
  request : RuntimeOverrideRequest
  command : RuntimeOverrideCommand
  overrideId : String
  deriving DecidableEq, Repr

/-- The ledger writes a call ends with. -/
inductive Closing where
  | finish (status : FinalStatus) (decision : RuntimeOverrideDecision) (errorCode : String)
  | markPartial (errorCode : String)
  deriving DecidableEq, Repr

/-- The write is a `finish`. -/
def Closing.finishes : Closing → Bool
  | .finish _ _ _ => true
  | .markPartial _ => false

/-- `_finish`. -/
def Closing.conflict (errorCode : String) : Closing :=
  .finish .conflict .needsDifferentBoundary errorCode

/-- `_finish` with `rejected=True`. -/
def Closing.rejected (errorCode : String) : Closing := .finish .rejected .rejected errorCode

/-- `_finish` with `failed=True`. -/
def Closing.failed (errorCode : String) : Closing := .finish .failed .rejected errorCode

/-- A point of `_apply` between two calls; `locked` says whether the `finally` block is still
ahead, `free` whether the call is `claimed and not candidate_created`. -/
inductive ApplyState where
  | idle
  | entered (input : ApplyInput)
  | reserving (input : ApplyInput) (command : RuntimeOverrideCommand)
  | recovering (ctx : ApplyContext) (stored : RuntimeOverride)
  | releasing (ctx : ApplyContext) (stored : RuntimeOverride)
  | requesting (ctx : ApplyContext)
  | loading (ctx : ApplyContext)
  | reading (ctx : ApplyContext) (thread : RuntimeThread)
  | claiming (ctx : ApplyContext) (thread : RuntimeThread) (source : CheckpointRecord)
  | marking (ctx : ApplyContext) (thread : RuntimeThread) (source : CheckpointRecord)
  | updating (ctx : ApplyContext) (thread : RuntimeThread) (source : CheckpointRecord)
  | undoing (ctx : ApplyContext) (thread : RuntimeThread) (source : CheckpointRecord)
  | attaching (ctx : ApplyContext) (record : CheckpointRecord)
  | promoting (ctx : ApplyContext) (record : CheckpointRecord)
  | publishing (ctx : ApplyContext)
  | closing (ctx : ApplyContext) (write : Closing) (locked : Bool)
  | leaving (ctx : ApplyContext) (free : Bool) (result : ApplyResult)
  | inspecting (ctx : ApplyContext) (result : ApplyResult)
  | freeing (ctx : ApplyContext) (current : RuntimeThread) (result : ApplyResult)
  | done (result : ApplyResult)
  | crashed
  deriving DecidableEq, Repr

/-- What `LangGraphStateUpdater.update` meets: an error before anything is written (a store error or
a `ValueError`), any other exception, or a checkpoint written by the graph. -/
inductive UpdateOutcome where
  | unavailable
  | raises (message : String)
  | written (record : CheckpointRecord) (nextNodes : List String) (readable : Bool)
  deriving DecidableEq, Repr

structure Outcome where
  now : ℕ
  uuid : String
  lockAvailable : Bool
  storeAvailable : Bool
  update : UpdateOutcome
  commits : Bool
  published : Bool
  deriving DecidableEq, Repr

/-- The holder of each thread's boundary lock; a call's token is its number. -/
abbrev Locks := String → Option ℕ

def Db.close (db : Db) (overrideId : String) (write : Closing) (now : ℕ) :
    Except LedgerError (RuntimeOverride × Db) :=
  match write with
  | .finish status decision code => db.finish overrideId status decision code now
  | .markPartial code => db.markPartial overrideId code now

namespace ApplyState

/-! ### The code between two calls -/

/-- From `get_by_thread_id` to the command. -/
def enter (input : ApplyInput) (o : Outcome) (db : Db) : ApplyState :=
  match db.threads input.threadId with
  | none => .done (.raised "THREAD_NOT_FOUND")
  | some _ =>
    if runtimeOverridePermission ∉ input.principal.permissions then
      .done (.raised "RUNTIME_OVERRIDE_FORBIDDEN")
    else match input.buildCommand o.uuid o.now with
      | .error message => .done (.raised message)
      | .ok command => .reserving input command

/-- The replay branch: an `APPLYING` row is repaired, any other row past `PENDING` is returned. -/
def resumeFrom (ctx : ApplyContext) (stored : RuntimeOverride) (replayed : Bool) : ApplyState :=
  if replayed = true ∧ stored.status ≠ .pending then
    if stored.status = .applying then
      if stored.resultCheckpointId ≠ none then
        .closing ctx (.markPartial "RUNTIME_OVERRIDE_RECONCILIATION_REQUIRED") false
      else .recovering ctx stored
    else .done (.returned stored true)
  else .requesting ctx

/-- `begin_or_replay`. -/
def reserve (input : ApplyInput) (command : RuntimeOverrideCommand) (db : Db) : ApplyState × Db :=
  match db.beginOrReplay command (command.requestedAt + intentTtl) with
  | .error e => (.done (.raised e.code), db)
  | .ok (stored, replayed, db') =>
    (resumeFrom ⟨input.threadId, input.request, command, stored.overrideId⟩ stored replayed, db')

/-- The final write of an interrupted override. -/
def interrupted (ctx : ApplyContext) : ApplyState :=
  .closing ctx (.failed "RUNTIME_OVERRIDE_INTERRUPTED") false

/-- An `APPLYING` row without a result: is the thread still fenced at its boundary? -/
def recover (ctx : ApplyContext) (stored : RuntimeOverride) (db : Db) : ApplyState :=
  match db.threads ctx.threadId with
  | none => interrupted ctx
  | some thread =>
    if thread.row.status = .overriding ∧
        thread.row.currentCheckpointId = stored.sourceCheckpointId ∧
        thread.row.stateVersion = stored.expectedVersion ∧
        thread.row.nextNode = stored.expectedNextNode then
      .releasing ctx stored
    else interrupted ctx

/-- `release_override_boundary` of the replay branch; a conflict is swallowed. -/
def release (ctx : ApplyContext) (stored : RuntimeOverride) (db : Db) : ApplyState × Db :=
  match db.releaseOverrideBoundary ctx.threadId (stored.sourceCheckpointId.getD "")
      stored.expectedVersion (stored.expectedNextNode.getD "") ctx.overrideId with
  | .error _ => (interrupted ctx, db)
  | .ok (_, db') => (interrupted ctx, db')

/-- `lock.acquire`. -/
def request (token : ℕ) (ctx : ApplyContext) (o : Outcome) (locks : Locks) : ApplyState × Locks :=
  if o.lockAvailable = false then
    (.done (.raised "Redis runtime boundary lock acquire failed"), locks)
  else match locks ctx.threadId with
    | some _ => (.closing ctx (.conflict "RUNTIME_OVERRIDE_BUSY") false, locks)
    | none => (.loading ctx, Function.update locks ctx.threadId (some token))

/-- The checks of the thread that is loaded under the lock. -/
def load (ctx : ApplyContext) (db : Db) : ApplyState :=
  match db.threads ctx.threadId with
  | none => .closing ctx (.rejected "THREAD_NOT_FOUND") true
  | some thread =>
    if thread.row.status = .terminal then .closing ctx (.rejected "THREAD_TERMINAL") true
    else if thread.row.status ≠ .stable then .closing ctx (.conflict "THREAD_NOT_STABLE") true
    else if thread.row.stateVersion ≠ ctx.request.expectedVersion then
      .closing ctx (.conflict "RUNTIME_STATE_VERSION_CONFLICT") true
    else if thread.row.currentCheckpointId = none then
      .closing ctx (.rejected "CANONICAL_CHECKPOINT_MISSING") true
    else .reading ctx thread.row

def refusal (policy : OverridePolicyResult) : Closing :=
  .finish (if policy.decision = .rejected then .rejected else .conflict) policy.decision
    (policy.errorCode.getD "RUNTIME_STATE_PRECONDITION_FAILED")

/-- `get_exact` of the canonical checkpoint, and the policy. -/
def read (ctx : ApplyContext) (thread : RuntimeThread) (o : Outcome) (db : Db) : ApplyState :=
  if o.storeAvailable = false then .closing ctx (.failed "CHECKPOINT_STORE_UNAVAILABLE") true
  else match db.store (ctx.threadId, thread.currentCheckpointId.getD "") with
    | none => .closing ctx (.failed "CANONICAL_CHECKPOINT_MISSING") true
    | some source =>
      let policy := evaluate ctx.command thread source.state
      if policy.allowed then .claiming ctx thread source
      else .closing ctx (refusal policy) true

/-- `claim_override_boundary`. -/
def claim (ctx : ApplyContext) (thread : RuntimeThread) (source : CheckpointRecord) (db : Db) :
    ApplyState × Db :=
  match db.claimOverrideBoundary ctx.threadId source.checkpointId thread.stateVersion
      (thread.nextNode.getD "") ctx.overrideId with
  | .error _ => (.closing ctx (.conflict "THREAD_NOT_STABLE") true, db)
  | .ok (_, db') => (.marking ctx thread source, db')

/-- `mark_applying`. -/
def mark (ctx : ApplyContext) (thread : RuntimeThread) (source : CheckpointRecord) (o : Outcome)
    (db : Db) : ApplyState × Db :=
  match db.markApplying ctx.overrideId thread.stateVersion source.checkpointId o.now with
  | .error e => (.leaving ctx true (.raised e.code), db)
  | .ok (_, db') => (.updating ctx thread source, db')

/-- `LangGraphStateUpdater.update`: the graph writes a checkpoint, which is read back and
validated; `none` when the store refuses the checkpoint the outcome proposes. -/
def update (config : RuntimeConfig) (ctx : ApplyContext) (thread : RuntimeThread)
    (source : CheckpointRecord) (o : Outcome) (db : Db) : Option (ApplyState × Db) :=
  match o.update with
  | .unavailable => some (.undoing ctx thread source, db)
  | .raises message => some (.leaving ctx true (.raised message), db)
  | .written record nextNodes readable =>
    (db.saveCheckpoint record).map fun db' =>
      if readable = false ∨ record.threadId ≠ source.threadId then
        (.undoing ctx thread source, db')
      else match validate config.maxCheckpointBytes source record nextNodes ctx.request.newValue
          (thread.nextNode.getD "") with
        | .error _ => (.undoing ctx thread source, db')
        | .ok () => (.attaching ctx record, db')

/-- The handler of a failed update releases the boundary. -/
def undo (ctx : ApplyContext) (thread : RuntimeThread) (source : CheckpointRecord) (db : Db) :
    ApplyState × Db :=
  match db.releaseOverrideBoundary ctx.threadId source.checkpointId thread.stateVersion
      (thread.nextNode.getD "") ctx.overrideId with
  | .error e => (.leaving ctx true (.raised e.code), db)
  | .ok (_, db') => (.closing ctx (.failed "CHECKPOINT_UPDATE_FAILED") true, db')

/-- `attach_result_checkpoint`. -/
def attach (ctx : ApplyContext) (record : CheckpointRecord) (db : Db) : ApplyState × Db :=
  match db.attachResultCheckpoint ctx.overrideId record.checkpointId with
  | .error e => (.leaving ctx false (.raised e.code), db)
  | .ok (_, db') => (.promoting ctx record, db')

/-- `promote_applied`. -/
def promote (ctx : ApplyContext) (record : CheckpointRecord) (o : Outcome) (db : Db) :
    ApplyState × Db :=
  match db.promoteApplied ctx.overrideId record.checkpointId record.serializedSizeBytes o.now
      o.commits with
  | .error .threadVersionConflict =>
    (.closing ctx (.markPartial "CHECKPOINT_PROMOTION_CONFLICT") true, db)
  | .error e => (.leaving ctx false (.raised e.code), db)
  | .ok (_, db') => (.publishing ctx, db')

/-- `publish_applied` and `mark_event_status`. -/
def publish (ctx : ApplyContext) (o : Outcome) (db : Db) : ApplyState × Db :=
  match db.markEventStatus ctx.overrideId (if o.published then "PUBLISHED" else "FAILED") with
  | .error e => (.leaving ctx false (.raised e.code), db)
  | .ok (row, db') => (.leaving ctx false (.returned row false), db')

/-- Where a call goes with its result: through the `finally` block or straight out. -/
def exit (ctx : ApplyContext) (locked : Bool) (result : ApplyResult) : ApplyState :=
  if locked then .leaving ctx false result else .done result

/-- `finish` or `mark_partial`. -/
def close (ctx : ApplyContext) (write : Closing) (locked : Bool) (o : Outcome) (db : Db) :
    ApplyState × Db :=
  match db.close ctx.overrideId write o.now with
  | .error e => (exit ctx locked (.raised e.code), db)
  | .ok (row, db') => (exit ctx locked (.returned row false), db')

/-- `lock.release` compares the token; an error of the lock server leaves the `finally` block. -/
def leave (token : ℕ) (ctx : ApplyContext) (free : Bool) (result : ApplyResult) (o : Outcome)
    (locks : Locks) : ApplyState × Locks :=
  if o.lockAvailable = false then
    (.done (.raised "Redis runtime boundary lock release failed"), locks)
  else
    (if free then .inspecting ctx result else .done result,
      if locks ctx.threadId = some token then Function.update locks ctx.threadId none else locks)

/-- `get_by_thread_id` of the `finally` block. -/
def inspect (ctx : ApplyContext) (result : ApplyResult) (db : Db) : ApplyState :=
  match db.threads ctx.threadId with
  | none => .done result
  | some thread =>
    if thread.row.status = .overriding then .freeing ctx thread.row result else .done result

/-- `release_override_boundary` of the `finally` block, at whatever boundary was read. -/
def free (ctx : ApplyContext) (current : RuntimeThread) (result : ApplyResult) (db : Db) :
    ApplyState × Db :=
  match db.releaseOverrideBoundary ctx.threadId (current.currentCheckpointId.getD "")
      current.stateVersion (current.nextNode.getD "") ctx.overrideId with
  | .error e => (.done (.raised e.code), db)
  | .ok (_, db') => (.done result, db')

/-- One repository, store or lock call of `_apply`; `none` when the call is over. -/
def step (config : RuntimeConfig) (token : ℕ) (o : Outcome) (db : Db) (locks : Locks) :
    ApplyState → Option (ApplyState × Db × Locks)
  | .idle | .done _ | .crashed => none
  | .entered input => some (enter input o db, db, locks)
  | .reserving input command => some (keep locks (reserve input command db))
  | .recovering ctx stored => some (recover ctx stored db, db, locks)
  | .releasing ctx stored => some (keep locks (release ctx stored db))
  | .requesting ctx => some (share db (request token ctx o locks))
  | .loading ctx => some (load ctx db, db, locks)
  | .reading ctx thread => some (read ctx thread o db, db, locks)
  | .claiming ctx thread source => some (keep locks (claim ctx thread source db))
  | .marking ctx thread source => some (keep locks (mark ctx thread source o db))
  | .updating ctx thread source => (update config ctx thread source o db).map (keep locks)
  | .undoing ctx thread source => some (keep locks (undo ctx thread source db))
  | .attaching ctx record => some (keep locks (attach ctx record db))
  | .promoting ctx record => some (keep locks (promote ctx record o db))
  | .publishing ctx => some (keep locks (publish ctx o db))
  | .closing ctx write locked => some (keep locks (close ctx write locked o db))
  | .leaving ctx free result => some (share db (leave token ctx free result o locks))
  | .inspecting ctx result => some (inspect ctx result db, db, locks)
  | .freeing ctx current result => some (keep locks (free ctx current result db))
where
  /-- A step that does not touch the locks. -/
  keep (locks : Locks) (p : ApplyState × Db) : ApplyState × Db × Locks := (p.1, p.2, locks)
  /-- A step that does not touch the database. -/
  share (db : Db) (p : ApplyState × Locks) : ApplyState × Db × Locks := (p.1, db, p.2)

/-! ### What each call can lead to -/

theorem enter_cases (input : ApplyInput) (o : Outcome) (db : Db) :
    (∃ code, enter input o db = .done (.raised code)) ∨
      ∃ role, sortedHead input.principal.roles = some role ∧
        runtimeOverridePermission ∈ input.principal.permissions ∧
        (input.command o.uuid role o.now).postInit = .ok () ∧
        enter input o db = .reserving input (input.command o.uuid role o.now) := by
  unfold enter
  split
  · exact .inl ⟨_, rfl⟩
  · split
    · exact .inl ⟨_, rfl⟩
    · rename_i hperm
      split
      · exact .inl ⟨_, rfl⟩
      · rename_i command hbuild
        unfold ApplyInput.buildCommand at hbuild
        split at hbuild
        · cases hbuild
        · rename_i role hrole
          cases hpost : (input.command o.uuid role o.now).postInit with
          | error m => simp only [hpost] at hbuild; cases hbuild
          | ok u =>
            simp only [hpost] at hbuild
            cases hbuild
            exact .inr ⟨role, hrole, not_not.mp hperm, hpost, rfl⟩

theorem resumeFrom_cases (ctx : ApplyContext) (stored : RuntimeOverride) (replayed : Bool) :
    ((replayed = false ∨ stored.status = .pending) ∧ resumeFrom ctx stored replayed = .requesting ctx) ∨
      (stored.status = .applying ∧ stored.resultCheckpointId ≠ none ∧
        resumeFrom ctx stored replayed =
          .closing ctx (.markPartial "RUNTIME_OVERRIDE_RECONCILIATION_REQUIRED") false) ∨
      (stored.status = .applying ∧ stored.resultCheckpointId = none ∧
        resumeFrom ctx stored replayed = .recovering ctx stored) ∨
      resumeFrom ctx stored replayed = .done (.returned stored true) := by
  unfold resumeFrom
  split
  · split
    · rename_i hs
      split
      · rename_i hr
        exact .inr (Or.inl ⟨hs, hr, rfl⟩)
      · rename_i hr
        exact .inr (Or.inr (Or.inl ⟨hs, not_ne_iff.mp hr, rfl⟩))
    · exact .inr (Or.inr (Or.inr rfl))
  · rename_i hnew
    refine .inl ⟨?_, rfl⟩
    by_cases hp : stored.status = .pending
    · exact .inr hp
    · refine .inl ?_
      cases replayed with
      | false => rfl
      | true => exact absurd ⟨rfl, hp⟩ hnew

theorem reserve_cases (input : ApplyInput) (command : RuntimeOverrideCommand) (db : Db) :
    (∃ code, reserve input command db = (.done (.raised code), db)) ∨
      ∃ stored replayed db', db.beginOrReplay command (command.requestedAt + intentTtl) =
          .ok (stored, replayed, db') ∧
        reserve input command db =
          (resumeFrom ⟨input.threadId, input.request, command, stored.overrideId⟩ stored replayed,
            db') := by
  unfold reserve
  split
  · exact .inl ⟨_, rfl⟩
  · rename_i stored replayed db' h
    exact .inr ⟨stored, replayed, db', h, rfl⟩

theorem load_cases (ctx : ApplyContext) (db : Db) :
    (∃ w : Closing, w.finishes = true ∧ load ctx db = .closing ctx w true) ∨
      ∃ thread, db.threads ctx.threadId = some thread ∧ thread.row.status = .stable ∧
        thread.row.stateVersion = ctx.request.expectedVersion ∧
        thread.row.currentCheckpointId ≠ none ∧ load ctx db = .reading ctx thread.row := by
  unfold load
  split
  · exact .inl ⟨_, rfl, rfl⟩
  · rename_i thread ht
    split
    · exact .inl ⟨_, rfl, rfl⟩
    split
    · exact .inl ⟨_, rfl, rfl⟩
    split
    · exact .inl ⟨_, rfl, rfl⟩
    split
    · exact .inl ⟨_, rfl, rfl⟩
    rename_i _ hs hv hc
    exact .inr ⟨thread, ht, not_ne_iff.mp hs, not_ne_iff.mp hv, hc, rfl⟩

theorem claim_cases (ctx : ApplyContext) (thread : RuntimeThread) (source : CheckpointRecord) (db : Db) :
    (∃ w : Closing, w.finishes = true ∧ claim ctx thread source db = (.closing ctx w true, db)) ∨
      ∃ row db', db.claimOverrideBoundary ctx.threadId source.checkpointId thread.stateVersion
          (thread.nextNode.getD "") ctx.overrideId = .ok (row, db') ∧
        claim ctx thread source db = (.marking ctx thread source, db') := by
  unfold claim
  split
  · exact .inl ⟨_, rfl, rfl⟩
  · rename_i row db' h
    exact .inr ⟨row, db', h, rfl⟩

theorem promote_cases (ctx : ApplyContext) (record : CheckpointRecord) (o : Outcome) (db : Db) :
    (∃ e, db.promoteApplied ctx.overrideId record.checkpointId record.serializedSizeBytes o.now
          o.commits = .error e ∧
        (promote ctx record o db =
            (.closing ctx (.markPartial "CHECKPOINT_PROMOTION_CONFLICT") true, db) ∨
          promote ctx record o db = (.leaving ctx false (.raised e.code), db))) ∨
      ∃ row db', db.promoteApplied ctx.overrideId record.checkpointId record.serializedSizeBytes
          o.now o.commits = .ok (row, db') ∧
        promote ctx record o db = (.publishing ctx, db') := by
  unfold promote
  split
  · rename_i h
    exact .inl ⟨_, h, Or.inl rfl⟩
  · rename_i e _ h
    exact .inl ⟨e, h, Or.inr rfl⟩
  · rename_i row db' h
    exact .inr ⟨row, db', h, rfl⟩

/-- **What a step of a call can do**: one case for each way it can go on. -/
inductive Moves (config : RuntimeConfig) (o : Outcome) (db : Db) : ApplyState → ApplyState → Db → Prop
  | refused {input code} : Moves config o db (.entered input) (.done (.raised code)) db
  | entered {input : ApplyInput} {role : String}
      (hpost : (input.command o.uuid role o.now).postInit = .ok ()) :
      Moves config o db (.entered input) (.reserving input (input.command o.uuid role o.now)) db
  | unreserved {input command code} : Moves config o db (.reserving input command) (.done (.raised code)) db
  | begun {input : ApplyInput} {command : RuntimeOverrideCommand} {stored : RuntimeOverride} {replayed : Bool}
      {db' : Db}
      (hb : db.beginOrReplay command (command.requestedAt + intentTtl) = .ok (stored, replayed, db'))
      (hnew : replayed = false ∨ stored.status = .pending) : Moves config o db (.reserving input command)
        (.requesting ⟨input.threadId, input.request, command, stored.overrideId⟩) db'
  | repairing {input : ApplyInput} {command : RuntimeOverrideCommand} {stored : RuntimeOverride}
      {replayed : Bool}
      {db' : Db} (hb : db.beginOrReplay command (command.requestedAt + intentTtl) =
        .ok (stored, replayed, db'))
      (hs : stored.status = .applying) (hres : stored.resultCheckpointId ≠ none) :
      Moves config o db (.reserving input command)
        (.closing ⟨input.threadId, input.request, command, stored.overrideId⟩
          (.markPartial "RUNTIME_OVERRIDE_RECONCILIATION_REQUIRED") false) db'
  | recovering {input : ApplyInput} {command : RuntimeOverrideCommand} {stored : RuntimeOverride}
      {replayed : Bool}
      {db' : Db} (hb : db.beginOrReplay command (command.requestedAt + intentTtl) =
        .ok (stored, replayed, db'))
      (hs : stored.status = .applying) : Moves config o db (.reserving input command)
        (.recovering ⟨input.threadId, input.request, command, stored.overrideId⟩ stored) db'
  | answered {input : ApplyInput} {command : RuntimeOverrideCommand} {stored : RuntimeOverride}
      {replayed : Bool}
      {db' : Db} (hb : db.beginOrReplay command (command.requestedAt + intentTtl) =
        .ok (stored, replayed, db')) :
      Moves config o db (.reserving input command) (.done (.returned stored true)) db'
  | unfenced {ctx : ApplyContext} {stored : RuntimeOverride}
      (hno : ∀ thread, db.threads ctx.threadId = some thread → ¬ (thread.row.status = .overriding ∧
        thread.row.currentCheckpointId = stored.sourceCheckpointId ∧
        thread.row.stateVersion = stored.expectedVersion ∧ thread.row.nextNode = stored.expectedNextNode)) :
      Moves config o db (.recovering ctx stored) (interrupted ctx) db
  | fenced {ctx stored} : Moves config o db (.recovering ctx stored) (.releasing ctx stored) db
  | unreleased {ctx : ApplyContext} {stored : RuntimeOverride} {e : RuntimeThreadError}
      (hrel : db.releaseOverrideBoundary ctx.threadId (stored.sourceCheckpointId.getD "")
      stored.expectedVersion
        (stored.expectedNextNode.getD "") ctx.overrideId = .error e) :
      Moves config o db (.releasing ctx stored) (interrupted ctx) db
  | released {ctx : ApplyContext} {stored : RuntimeOverride} {row : RuntimeThread} {db' : Db}
      (hrel : db.releaseOverrideBoundary ctx.threadId (stored.sourceCheckpointId.getD "")
      stored.expectedVersion
        (stored.expectedNextNode.getD "") ctx.overrideId = .ok (row, db')) :
      Moves config o db (.releasing ctx stored) (interrupted ctx) db'
  | unlocked {ctx code} : Moves config o db (.requesting ctx) (.done (.raised code)) db
  | busy {ctx : ApplyContext} {w : Closing} (hw : w.finishes = true) :
      Moves config o db (.requesting ctx) (.closing ctx w false) db
  | locked {ctx} : Moves config o db (.requesting ctx) (.loading ctx) db
  | unfit {ctx : ApplyContext} {w : Closing} (hw : w.finishes = true) :
      Moves config o db (.loading ctx) (.closing ctx w true) db
  | loaded {ctx : ApplyContext} {thread : ThreadRecord} (ht : db.threads ctx.threadId = some thread)
      (hs : thread.row.status = .stable) (hv : thread.row.stateVersion = ctx.request.expectedVersion)
      (hcur : thread.row.currentCheckpointId ≠ none) :
      Moves config o db (.loading ctx) (.reading ctx thread.row) db
  | declined {ctx : ApplyContext} {thread : RuntimeThread} {w : Closing} (hw : w.finishes = true) :
      Moves config o db (.reading ctx thread) (.closing ctx w true) db
  | allowed {ctx : ApplyContext} {thread : RuntimeThread} {source : CheckpointRecord}
      (hs : db.store (ctx.threadId, thread.currentCheckpointId.getD "") = some source)
      (hallowed : Allowed ctx.command thread source.state) :
      Moves config o db (.reading ctx thread) (.claiming ctx thread source) db
  | unclaimed {ctx : ApplyContext} {thread : RuntimeThread} {source : CheckpointRecord} {w : Closing}
      (hw : w.finishes = true) : Moves config o db (.claiming ctx thread source) (.closing ctx w true) db
  | claimed {ctx : ApplyContext} {thread : RuntimeThread} {source : CheckpointRecord} {row : RuntimeThread}
      {db' : Db} (hclaim : db.claimOverrideBoundary ctx.threadId source.checkpointId thread.stateVersion
        (thread.nextNode.getD "") ctx.overrideId = .ok (row, db')) :
      Moves config o db (.claiming ctx thread source) (.marking ctx thread source) db'
  | unmarked {ctx thread source code} :
      Moves config o db (.marking ctx thread source) (.leaving ctx true (.raised code)) db
  | marked {ctx : ApplyContext} {thread : RuntimeThread} {source : CheckpointRecord} {row : RuntimeOverride}
      {db' : Db}
      (hm : db.markApplying ctx.overrideId thread.stateVersion source.checkpointId o.now = .ok (row, db')) :
      Moves config o db (.marking ctx thread source) (.updating ctx thread source) db'
  | unavailable {ctx thread source} : Moves config o db (.updating ctx thread source)
      (.undoing ctx thread source) db
  | failed {ctx thread source message} :
      Moves config o db (.updating ctx thread source) (.leaving ctx true (.raised message)) db
  | invalid {ctx : ApplyContext} {thread : RuntimeThread} {source record : CheckpointRecord} {db' : Db}
      (hs : db.saveCheckpoint record = some db') :
      Moves config o db (.updating ctx thread source) (.undoing ctx thread source) db'
  | updated {ctx : ApplyContext} {thread : RuntimeThread} {source record : CheckpointRecord}
      {next : List String} {db' : Db} (hs : db.saveCheckpoint record = some db')
      (hv : Validated config.maxCheckpointBytes source record next ctx.request.newValue
        (thread.nextNode.getD "")) :
      Moves config o db (.updating ctx thread source) (.attaching ctx record) db'
  | stuck {ctx thread source code} :
      Moves config o db (.undoing ctx thread source) (.leaving ctx true (.raised code)) db
  | undone {ctx : ApplyContext} {thread : RuntimeThread} {source : CheckpointRecord} {row : RuntimeThread}
      {db' : Db} (hrel : db.releaseOverrideBoundary ctx.threadId source.checkpointId thread.stateVersion
        (thread.nextNode.getD "") ctx.overrideId = .ok (row, db')) :
      Moves config o db (.undoing ctx thread source) (.closing ctx (.failed "CHECKPOINT_UPDATE_FAILED") true)
        db'
  | unattached {ctx record code} : Moves config o db (.attaching ctx record)
      (.leaving ctx false (.raised code)) db
  | attached {ctx : ApplyContext} {record : CheckpointRecord} {row : RuntimeOverride} {db' : Db}
      (ha : db.attachResultCheckpoint ctx.overrideId record.checkpointId = .ok (row, db')) :
      Moves config o db (.attaching ctx record) (.promoting ctx record) db'
  | conflicting {ctx record} :
      Moves config o db (.promoting ctx record)
      (.closing ctx (.markPartial "CHECKPOINT_PROMOTION_CONFLICT") true) db
  | unpromoted {ctx record code} : Moves config o db (.promoting ctx record)
      (.leaving ctx false (.raised code)) db
  | promoted {ctx : ApplyContext} {record : CheckpointRecord} {row : RuntimeOverride} {db' : Db}
      (hp : db.promoteApplied ctx.overrideId record.checkpointId record.serializedSizeBytes o.now o.commits =
        .ok (row, db')) : Moves config o db (.promoting ctx record) (.publishing ctx) db'
  | unpublished {ctx result} : Moves config o db (.publishing ctx) (.leaving ctx false result) db
  | published {ctx : ApplyContext} {result : ApplyResult} {row : RuntimeOverride} {status : String} {db' : Db}
      (hm : db.markEventStatus ctx.overrideId status = .ok (row, db')) :
      Moves config o db (.publishing ctx) (.leaving ctx false result) db'
  | closed {ctx : ApplyContext} {write : Closing} {result : ApplyResult} {db' : Db}
      (hdb : db' = db ∨ ∃ row, db.close ctx.overrideId write o.now = .ok (row, db')) :
      Moves config o db (.closing ctx write true) (.leaving ctx false result) db'
  | ended {ctx : ApplyContext} {write : Closing} {result : ApplyResult} {db' : Db}
      (hdb : db' = db ∨ ∃ row, db.close ctx.overrideId write o.now = .ok (row, db')) :
      Moves config o db (.closing ctx write false) (.done result) db'
  | left {ctx free result result'} : Moves config o db (.leaving ctx free result) (.done result') db
  | inspecting {ctx result} : Moves config o db (.leaving ctx true result) (.inspecting ctx result) db
  | settled {ctx result} : Moves config o db (.inspecting ctx result) (.done result) db
  | overriding {ctx : ApplyContext} {result : ApplyResult} {thread : ThreadRecord}
      (ht : db.threads ctx.threadId = some thread) (hs : thread.row.status = .overriding) :
      Moves config o db (.inspecting ctx result) (.freeing ctx thread.row result) db
  | unfreed {ctx current result result'} : Moves config o db (.freeing ctx current result) (.done result') db
  | freed {ctx : ApplyContext} {current : RuntimeThread} {result : ApplyResult} {row : RuntimeThread}
      {db' : Db}
      (hrel : db.releaseOverrideBoundary ctx.threadId (current.currentCheckpointId.getD "")
        current.stateVersion
        (current.nextNode.getD "") ctx.overrideId = .ok (row, db')) :
      Moves config o db (.freeing ctx current result) (.done result) db'

section

variable {config : RuntimeConfig} {token : ℕ} {o : Outcome} {db db' : Db} {locks locks' : Locks}
  {st' : ApplyState} {ctx : ApplyContext} {thread : RuntimeThread} {source record : CheckpointRecord}
  {stored : RuntimeOverride} {result : ApplyResult}

theorem recover_moves : Moves config o db (.recovering ctx stored) (recover ctx stored db) db := by
  unfold recover
  cases ht : db.threads ctx.threadId with
  | none => exact .unfenced fun thread h => by rw [ht] at h; cases h
  | some thread =>
    simp only
    split
    · exact .fenced
    · rename_i hm
      refine .unfenced fun t h => ?_
      rw [ht] at h
      cases h
      exact hm

theorem release_moves (h : release ctx stored db = (st', db')) :
    Moves config o db (.releasing ctx stored) st' db' := by
  unfold release at h
  split at h <;> rename_i hrel <;> cases h
  · exact .unreleased hrel
  · exact .released hrel

theorem request_moves : Moves config o db (.requesting ctx) (request token ctx o locks).1 db := by
  unfold request
  split
  · exact .unlocked
  · split
    · exact .busy rfl
    · exact .locked

theorem read_moves : Moves config o db (.reading ctx thread) (read ctx thread o db) db := by
  unfold read
  split
  · exact .declined rfl
  · split
    · exact .declined rfl
    · rename_i source hs
      simp only
      split
      · rename_i hp
        exact .allowed hs (evaluate_allowed_iff.mp hp)
      · exact .declined rfl

theorem mark_moves (h : mark ctx thread source o db = (st', db')) :
    Moves config o db (.marking ctx thread source) st' db' := by
  unfold mark at h
  split at h <;> rename_i hm <;> cases h
  · exact .unmarked
  · exact .marked hm

theorem update_moves (h : update config ctx thread source o db = some (st', db')) :
    Moves config o db (.updating ctx thread source) st' db' := by
  unfold update at h
  split at h
  · cases h
    exact .unavailable
  · cases h
    exact .failed
  · obtain ⟨db₁, hs, hp⟩ := Option.map_eq_some_iff.mp h
    split at hp
    · cases hp
      exact .invalid hs
    · split at hp <;> rename_i hv <;> cases hp
      · exact .invalid hs
      · exact .updated hs (validate_ok hv)

theorem undo_moves (h : undo ctx thread source db = (st', db')) :
    Moves config o db (.undoing ctx thread source) st' db' := by
  unfold undo at h
  split at h <;> rename_i hrel <;> cases h
  · exact .stuck
  · exact .undone hrel

theorem attach_moves (h : attach ctx record db = (st', db')) :
    Moves config o db (.attaching ctx record) st' db' := by
  unfold attach at h
  split at h <;> rename_i ha <;> cases h
  · exact .unattached
  · exact .attached ha

theorem publish_moves (h : publish ctx o db = (st', db')) : Moves config o db (.publishing ctx) st' db' := by
  unfold publish at h
  split at h <;> rename_i hm <;> cases h
  · exact .unpublished
  · exact .published hm

theorem close_moves {write : Closing} {locked : Bool} (h : close ctx write locked o db = (st', db')) :
    Moves config o db (.closing ctx write locked) st' db' := by
  unfold close at h
  split at h <;> rename_i hc <;> cases h <;> cases locked
  · exact .ended (Or.inl rfl)
  · exact .closed (Or.inl rfl)
  · exact .ended (Or.inr ⟨_, hc⟩)
  · exact .closed (Or.inr ⟨_, hc⟩)

theorem leave_moves {free : Bool} :
    Moves config o db (.leaving ctx free result) (leave token ctx free result o locks).1 db := by
  unfold leave
  split
  · exact .left
  · cases free with
    | true => exact .inspecting
    | false => exact .left

theorem inspect_moves : Moves config o db (.inspecting ctx result) (inspect ctx result db) db := by
  unfold inspect
  split
  · exact .settled
  · split
    · exact .overriding ‹_› ‹_›
    · exact .settled

theorem free_moves (h : free ctx thread result db = (st', db')) :
    Moves config o db (.freeing ctx thread result) st' db' := by
  unfold free at h
  split at h <;> rename_i hrel <;> cases h
  · exact .unfreed
  · exact .freed hrel

/-- All that one statement of a call can do to the database. -/
theorem step_moves {st : ApplyState} (h : step config token o db locks st = some (st', db', locks')) :
    Moves config o db st st' db' := by
  cases st with
  | idle => cases h
  | done result => cases h
  | crashed => cases h
  | entered input =>
    cases h
    obtain ⟨code, hc⟩ | ⟨role, -, -, hpost, hc⟩ := enter_cases input o db
    · exact hc ▸ .refused
    · exact hc ▸ .entered hpost
  | reserving input command =>
    cases h
    obtain ⟨code, hc⟩ | ⟨stored, replayed, db₁, hb, hc⟩ := reserve_cases input command db
    · simp only [hc]
      exact .unreserved
    simp only [hc]
    obtain ⟨hnew, hr⟩ | ⟨hs, hres, hr⟩ | ⟨hs, -, hr⟩ | hr := resumeFrom_cases
      ⟨input.threadId, input.request, command, stored.overrideId⟩ stored replayed
    · exact hr ▸ .begun hb hnew
    · exact hr ▸ .repairing hb hs hres
    · exact hr ▸ .recovering hb hs
    · exact hr ▸ .answered hb
  | recovering ctx stored => cases h; exact recover_moves
  | releasing ctx stored => cases h; exact release_moves rfl
  | requesting ctx => cases h; exact request_moves
  | loading ctx =>
    cases h
    obtain ⟨w, hw, hc⟩ | ⟨thread, ht, hs, hv, hcur, hc⟩ := load_cases ctx db
    · exact hc ▸ .unfit hw
    · exact hc ▸ .loaded ht hs hv hcur
  | reading ctx thread => cases h; exact read_moves
  | claiming ctx thread source =>
    cases h
    obtain ⟨w, hw, hc⟩ | ⟨row, db₁, hclaim, hc⟩ := claim_cases ctx thread source db
    · simp only [hc]
      exact .unclaimed hw
    · simp only [hc]
      exact .claimed hclaim
  | marking ctx thread source => cases h; exact mark_moves rfl
  | updating ctx thread source =>
    obtain ⟨⟨st₁, db₁⟩, hp, hh⟩ := Option.map_eq_some_iff.mp h
    cases hh
    exact update_moves hp
  | undoing ctx thread source => cases h; exact undo_moves rfl
  | attaching ctx record => cases h; exact attach_moves rfl
  | promoting ctx record =>
    cases h
    obtain ⟨e, -, hc | hc⟩ | ⟨row, db₁, hp, hc⟩ := promote_cases ctx record o db
    · simp only [hc]
      exact .conflicting
    · simp only [hc]
      exact .unpromoted
    · simp only [hc]
      exact .promoted hp
  | publishing ctx => cases h; exact publish_moves rfl
  | closing ctx write locked => cases h; exact close_moves rfl
  | leaving ctx free result => cases h; exact leave_moves
  | inspecting ctx result => cases h; exact inspect_moves
  | freeing ctx current result => cases h; exact free_moves rfl

end

end ApplyState

end CountyFlow.Override
