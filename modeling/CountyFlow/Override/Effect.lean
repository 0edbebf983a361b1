import Mathlib.Data.List.Find
import CountyFlow.Override.Chain

/-!
# An allowed override that runs alone

Five guards stand between a request and its effect: the policy, the claim of the boundary, the
validation of the candidate, the ledger transitions and the compare-and-swap of the promotion.  This
file runs them one after the other for a call that meets no other operation and a world that does
what is asked.
-/

namespace CountyFlow.Override

open CountyFlow.Lib CountyFlow.Core CountyFlow.Runtime

/-! ### A call on its own -/

/-- One step of a call on its state, the database and the locks. -/
def solo (config : RuntimeConfig) (token : ℕ) (x : ApplyState × Db × Locks) (o : Outcome) :
    Option (ApplyState × Db × Locks) :=
  ApplyState.step config token o x.2.1 x.2.2 x.1

namespace System

variable {worker : WorkerConfig}

def withCall (s : System) (c : ℕ) (x : ApplyState × Db × Locks) : System :=
  { s with db := x.2.1, locks := x.2.2, calls := Function.update s.calls c x.1 }

@[simp] theorem withCall_calls (s : System) (c : ℕ) (x : ApplyState × Db × Locks) :
    (s.withCall c x).calls c = x.1 := by
  simp [withCall]

theorem withCall_withCall (s : System) (c : ℕ) (x y : ApplyState × Db × Locks) :
    (s.withCall c x).withCall c y = s.withCall c y := by
  simp [withCall]

theorem step_advance (s : System) (c : ℕ) (o : Outcome) :
    step worker s (.advance c o) =
      (solo worker.runtime c (s.calls c, s.db, s.locks) o).map (s.withCall c) := rfl

variable {s : System} {c : ℕ} {input : ApplyInput}

theorem step_beginApply (hidle : s.calls c = .idle) :
    step worker s (.beginApply c input) = some (s.withCall c (.entered input, s.db, s.locks)) := by
  simp only [step, if_pos hidle]
  rfl

theorem exec_advances (s : System) (c : ℕ) (x : ApplyState × Db × Locks) (os : List Outcome) :
    exec (step worker) (s.withCall c x) (os.map (.advance c)) =
      (exec (solo worker.runtime c) x os).map (s.withCall c) := by
  induction os generalizing x with
  | nil => rfl
  | cons o os ih =>
    have hstep : step worker (s.withCall c x) (.advance c o) =
        (solo worker.runtime c x o).map (s.withCall c) := by
      rw [step_advance, withCall_calls]
      congr 1
      funext y
      exact withCall_withCall s c x y
    rw [List.map_cons, exec_cons, exec_cons, hstep]
    cases solo worker.runtime c x o with
    | none => rfl
    | some y => exact ih y

theorem exec_call (hidle : s.calls c = .idle) (os : List Outcome) :
    exec (step worker) s (.beginApply c input :: os.map (.advance c)) =
      (exec (solo worker.runtime c) (.entered input, s.db, s.locks) os).map (s.withCall c) := by
  rw [exec_cons, step_beginApply hidle]
  exact exec_advances s c _ os

end System

/-! ### What each guard lets through -/

/-- The request may be made and its command can be built. -/
structure ApplyInput.Permitted (input : ApplyInput) (overrideId : String) (now : ℕ)
    (command : RuntimeOverrideCommand) : Prop where
  permission : runtimeOverridePermission ∈ input.principal.permissions
  built : input.buildCommand overrideId now = .ok command

theorem ApplyInput.buildCommand_ok {input : ApplyInput} {ov : String} {now : ℕ}
    {command : RuntimeOverrideCommand} (h : input.buildCommand ov now = .ok command) :
    ∃ role, sortedHead input.principal.roles = some role ∧ command = input.command ov role now ∧
      command.postInit = .ok () := by
  unfold buildCommand at h
  split at h
  · cases h
  · rename_i role hrole
    simp only at h
    cases hpost : (input.command ov role now).postInit with
    | error m =>
      rw [hpost] at h
      cases h
    | ok u =>
      rw [hpost] at h
      have hc : input.command ov role now = command := Except.ok.inj h
      exact ⟨role, hrole, hc.symm, by rw [← hc, hpost]⟩

variable {db : Db} {row : RuntimeOverride} {thread : RuntimeThread}

namespace ApplyState

variable {o : Outcome} {r : ThreadRecord} {command : RuntimeOverrideCommand}

theorem enter_permitted {input : ApplyInput} (hr : db.threads input.threadId = some r)
    (hp : input.Permitted o.uuid o.now command) : enter input o db = .reserving input command := by
  unfold enter
  rw [hr]
  simp only
  rw [if_neg (not_not.mpr hp.permission), hp.built]

theorem reserve_new (input : ApplyInput) (hr : db.threads command.threadId = some r)
    (hkey : db.byKey command.idempotencyKey = none) (hid : db.ledger.find command.overrideId = none) :
    ∃ row ledger, row = RuntimeOverride.reserve command r.row.taskId
        (command.requestedAt + intentTtl) ∧
      reserve input command db =
        (.requesting ⟨input.threadId, input.request, command, command.overrideId⟩,
          { db with ledger := ledger }) ∧
      ledger.find command.overrideId = some row ∧ ledger.rows = db.ledger.rows ++ [row] := by
  obtain ⟨ledger, hadd⟩ := Table.add_of_find_none
    (r := RuntimeOverride.reserve command r.row.taskId (command.requestedAt + intentTtl)) hid
  refine ⟨_, ledger, rfl, ?_, ?_, Table.rows_add hadd⟩
  · unfold reserve Db.beginOrReplay
    rw [hkey]
    simp only [hr, hadd]
    rfl
  · rw [Table.find_add hadd]
    exact if_pos rfl

theorem reserve_replay (input : ApplyInput) (hkey : db.byKey command.idempotencyKey = some row)
    (hop : row.operatorId = command.operatorId) (hfp : row.payloadFingerprint = command.fingerprint) :
    reserve input command db =
      (resumeFrom ⟨input.threadId, input.request, command, row.overrideId⟩ row true, db) := by
  have hreplay : row.replay command = .ok row := by
    unfold RuntimeOverride.replay
    rw [if_neg (by simp [hop, hfp])]
  unfold reserve Db.beginOrReplay
  rw [hkey]
  simp only [hreplay]
  rfl

variable {ctx : ApplyContext}

theorem request_free {token : ℕ} {locks : Locks} (ho : o.lockAvailable = true)
    (hfree : locks ctx.threadId = none) :
    request token ctx o locks =
      (.loading ctx, Function.update locks ctx.threadId (some token)) := by
  simp [request, ho, hfree]

theorem load_stable (hr : db.threads ctx.threadId = some r) (hstatus : r.row.status = .stable)
    (hversion : r.row.stateVersion = ctx.request.expectedVersion)
    (hpointer : r.row.currentCheckpointId ≠ none) : load ctx db = .reading ctx r.row := by
  unfold load
  rw [hr]
  simp [hstatus, hversion, hpointer]

variable {source : CheckpointRecord}

theorem read_allowed (ho : o.storeAvailable = true)
    (hstored : db.store (ctx.threadId, thread.currentCheckpointId.getD "") = some source)
    (hallowed : (evaluate ctx.command thread source.state).allowed = true) :
    read ctx thread o db = .claiming ctx thread source := by
  unfold read
  rw [if_neg (by simp [ho]), hstored]
  simp [hallowed]

theorem claim_stable {next : String} (hr : db.threads ctx.threadId = some r)
    (hstatus : r.row.status = .stable) (hpointer : r.row.currentCheckpointId = some source.checkpointId)
    (hnext : r.row.nextNode = some next) :
    claim ctx r.row source db = (.marking ctx r.row source,
      (db.setThread ctx.threadId (r.claimed .overriding none)).raise ctx.threadId
        ctx.overrideId) := by
  have hb : r.atBoundary .stable source.checkpointId r.row.stateVersion
      (r.row.nextNode.getD "") = true := by
    rw [ThreadRecord.atBoundary_iff]
    exact ⟨hstatus, hpointer, rfl, by simp [hnext]⟩
  unfold claim Db.claimOverrideBoundary Db.updateThread
  rw [hr]
  simp only [ThreadRecord.claimOverrideBoundary, ThreadRecord.claimBoundary, if_pos hb]
  rfl

theorem mark_pending (hrow : db.ledger.find ctx.overrideId = some row) (hstatus : row.status = .pending) :
    mark ctx thread source o db = (.updating ctx thread source,
      db.setRow { row with
        status := .applying
        decision := some .allowed
        beforeStateVersion := some thread.stateVersion
        sourceCheckpointId := some source.checkpointId
        startedAt := some o.now }) := by
  unfold mark Db.markApplying Db.updateRow
  rw [hrow]
  simp only [RuntimeOverride.markApplying, hstatus]
  rfl

theorem update_written {config : RuntimeConfig} {record : CheckpointRecord} {nextNodes : List String}
    {db' : Db} (ho : o.update = .written record nextNodes true) (hsave : db.saveCheckpoint record = some db')
    (hvalid : validate config.maxCheckpointBytes source record nextNodes ctx.request.newValue
      (thread.nextNode.getD "") = .ok ()) :
    update config ctx thread source o db = some (.attaching ctx record, db') := by
  unfold update
  rw [ho]
  simp only [hsave, Option.map_some]
  rw [if_neg, hvalid]
  rw [not_or]
  exact ⟨by simp, not_not.mpr (validate_ok hvalid).thread⟩

theorem attach_applying {record : CheckpointRecord} (hrow : db.ledger.find ctx.overrideId = some row)
    (hstatus : row.status = .applying) (hresult : row.resultCheckpointId = none) :
    attach ctx record db = (.promoting ctx record,
      db.setRow { row with resultCheckpointId := some record.checkpointId }) := by
  unfold attach Db.attachResultCheckpoint Db.updateRow
  rw [hrow]
  simp only [RuntimeOverride.attachResultCheckpoint, hstatus, hresult]
  rfl

end ApplyState

theorem Db.promoteApplied_promotable {ov c : String} {size now : ℕ} {r : ThreadRecord}
    (hrow : db.ledger.find ov = some row) (hr : db.threads row.threadId = some r)
    (hprom : row.promotable r.row c = true) :
    db.promoteApplied ov c size now true =
      .ok (row.applyPromotion (r.row.stateVersion + 1) now,
        ((db.setRow (row.applyPromotion (r.row.stateVersion + 1) now)).setThread row.threadId
          (applyOverride r row c size)).lower row.threadId ov) := by
  have hne : row.status ≠ .applied := by
    intro happ
    obtain ⟨hs | hs, -⟩ := RuntimeOverride.promotable_iff.mp hprom
    · rw [happ] at hs
      cases hs
    · rw [happ] at hs
      cases hs
  unfold Db.promoteApplied
  rw [hrow]
  simp only [if_neg hne, hr, Override.promoteApplied, hprom]
  rfl

theorem Db.promoteApplied_conflict {ov c : String} {size now : ℕ} {commits : Bool} {r : ThreadRecord}
    (hrow : db.ledger.find ov = some row) (hne : row.status ≠ .applied)
    (hr : db.threads row.threadId = some r) (hprom : row.promotable r.row c = false) :
    db.promoteApplied ov c size now commits = .error .threadVersionConflict := by
  unfold Db.promoteApplied
  rw [hrow]
  simp only [if_neg hne, hr, Override.promoteApplied, hprom]
  rfl

namespace ApplyState

theorem publish_found (ctx : ApplyContext) (o : Outcome) (hrow : db.ledger.find ctx.overrideId = some row) :
    ∃ status, publish ctx o db =
      (.leaving ctx false (.returned (row.markEventStatus status) false),
        db.setRow (row.markEventStatus status)) := by
  unfold publish Db.markEventStatus Db.updateRow
  rw [hrow]
  exact ⟨_, rfl⟩

theorem leave_returned (token : ℕ) (ctx : ApplyContext) (result : ApplyResult) (locks : Locks) {o : Outcome}
    (ho : o.lockAvailable = true) :
    ∃ locks', leave token ctx false result o locks = (.done result, locks') := by
  unfold leave
  rw [if_neg (by simp [ho])]
  exact ⟨_, rfl⟩

end ApplyState

/-! ### The whole call -/

theorem Db.byKey_setRow {row' : RuntimeOverride} {key : String} (hkey : db.byKey key = some row)
    (hid : row'.overrideId = row.overrideId)
    (hsame : row'.idempotencyKey = row.idempotencyKey) : (db.setRow row').byKey key = some row' := by
  have hfound : db.ledger.find row'.overrideId = some row := by
    rw [hid]
    exact (Db.byKey_eq_some hkey).1
  have hpred : ∀ r ∈ db.ledger.rows,
      (decide ((if r.overrideId = row'.overrideId then row' else r).idempotencyKey = key)) =
        decide (r.idempotencyKey = key) := by
    intro r hr
    by_cases h : r.overrideId = row'.overrideId
    · have hrr : db.ledger.find r.overrideId = some r := Table.find_of_mem hr
      rw [h, hfound] at hrr
      rw [if_pos h, hsame, Option.some.inj hrr]
    · rw [if_neg h]
  show (db.ledger.rows.map fun r => if r.overrideId = row'.overrideId then row' else r).find?
    (fun r => decide (r.idempotencyKey = key)) = some row'
  rw [List.find?_map]
  have hcomp : db.ledger.rows.find? ((fun r => decide (r.idempotencyKey = key)) ∘
      fun r => if r.overrideId = row'.overrideId then row' else r) = some row := by
    rw [← hkey]
    exact List.find?_congr hpred
  rw [hcomp, Option.map_some, if_pos hid.symm]

/-- A call that stands before its promotion: the fence is up, the row is marked and carries its
candidate. -/
structure Prepared (db : Db) (ctx : ApplyContext) (r : ThreadRecord)
    (source record : CheckpointRecord) (row : RuntimeOverride) : Prop where
  found : db.ledger.find ctx.overrideId = some row
  byKey : db.byKey ctx.command.idempotencyKey = some row
  status : row.status = .applying
  source : row.sourceCheckpointId = some source.checkpointId
  result : row.resultCheckpointId = some record.checkpointId
  threadId : row.threadId = ctx.threadId
  expectedVersion : row.expectedVersion = ctx.command.expectedVersion
  expectedNextNode : row.expectedNextNode = ctx.command.expectedNextNode
  operatorId : row.operatorId = ctx.command.operatorId
  fingerprint : row.payloadFingerprint = ctx.command.fingerprint
  thread : db.threads ctx.threadId = some (r.claimed .overriding none)

namespace System

variable {worker : WorkerConfig}

/-- A request that reaches the policy and is allowed, with nothing else running on its thread and
a store, lock, database and updater that succeed. -/
structure Admitted (worker : WorkerConfig) (s : System) (c : ℕ) (input : ApplyInput)
    (o : ℕ → Outcome) (command : RuntimeOverrideCommand) (r : ThreadRecord)
    (source record : CheckpointRecord) (nextNodes : List String) : Prop where
  idle : s.calls c = .idle
  permitted : input.Permitted (o 0).uuid (o 0).now command
  newKey : s.db.byKey input.request.idempotencyKey = none
  newId : s.db.ledger.find (o 0).uuid = none
  unlocked : s.locks input.threadId = none
  thread : s.db.threads input.threadId = some r
  status : r.row.status = .stable
  version : r.row.stateVersion = input.request.expectedVersion
  canonical : r.row.currentCheckpointId = some source.checkpointId
  stored : s.db.store (input.threadId, source.checkpointId) = some source
  allowed : (evaluate command r.row source.state).allowed = true
  available : ∀ n, (o n).lockAvailable = true ∧ (o n).storeAvailable = true ∧ (o n).commits = true
  written : (o 7).update = .written record nextNodes true
  saved : s.db.saveCheckpoint record ≠ none
  valid : validate worker.runtime.maxCheckpointBytes source record nextNodes
    input.request.newValue (r.row.nextNode.getD "") = .ok ()

/-- The call from its first step to its last. -/
def applyRun (c : ℕ) (input : ApplyInput) (o : ℕ → Outcome) : List Action :=
  .beginApply c input :: ((List.range 12).map o).map (.advance c)

def replayRun (c : ℕ) (input : ApplyInput) (o : ℕ → Outcome) : List Action :=
  .beginApply c input :: ((List.range 2).map o).map (.advance c)

/-- The call ends with its override `APPLIED`, the thread `STABLE` one version on with the candidate
canonical, and the same request again is answered with the same row. -/
def TakesEffect (worker : WorkerConfig) (s : System) (c : ℕ) (input : ApplyInput)
    (o : ℕ → Outcome) (r : ThreadRecord) (record : CheckpointRecord) : Prop :=
  ∃ s' row r', exec (step worker) s (applyRun c input o) = some s' ∧
    s'.calls c = .done (.returned row false) ∧
    s'.db.ledger.find row.overrideId = some row ∧ row.status = .applied ∧
    row.resultCheckpointId = some record.checkpointId ∧
    s'.db.threads input.threadId = some r' ∧ r'.row.status = .stable ∧
    r'.row.stateVersion = r.row.stateVersion + 1 ∧
    r'.row.currentCheckpointId = some record.checkpointId ∧
    ∀ c' o' command', s'.calls c' = .idle → input.Permitted (o' 0).uuid (o' 0).now command' →
      ∃ s'', exec (step worker) s' (replayRun c' input o') = some s'' ∧
        s''.calls c' = .done (.returned row true) ∧ s''.db = s'.db

variable {s : System} {c : ℕ} {input : ApplyInput} {o : ℕ → Outcome}
  {command : RuntimeOverrideCommand} {r : ThreadRecord} {source record : CheckpointRecord}
  {nextNodes : List String}

def contextOf (input : ApplyInput) (command : RuntimeOverrideCommand) : ApplyContext :=
  ⟨input.threadId, input.request, command, command.overrideId⟩

/-- Six statements take an admitted call to its claimed boundary. -/
theorem exec_claimed (h : Admitted worker s c input o command r source record nextNodes) :
    ∃ db locks row,
      exec (solo worker.runtime c) (.entered input, s.db, s.locks) ((List.range 6).map o) =
        some (.marking (contextOf input command) r.row source, db, locks) ∧
      row = RuntimeOverride.reserve command r.row.taskId (command.requestedAt + intentTtl) ∧
      db.ledger.find command.overrideId = some row ∧
      db.byKey command.idempotencyKey = some row ∧
      db.threads input.threadId = some (r.claimed .overriding none) ∧ db.store = s.db.store := by
  obtain ⟨role, -, hcommand, -⟩ := ApplyInput.buildCommand_ok h.permitted.built
  have hthread : s.db.threads command.threadId = some r := by rw [hcommand]; exact h.thread
  have hkey : s.db.byKey command.idempotencyKey = none := by rw [hcommand]; exact h.newKey
  have hid : s.db.ledger.find command.overrideId = none := by rw [hcommand]; exact h.newId
  obtain ⟨row, ledger, hrow, hreserve, hfound, hrows⟩ :=
    ApplyState.reserve_new input hthread hkey hid
  let ctx := contextOf input command
  let db₁ : Db := { s.db with ledger := ledger }
  let locks₁ : Locks := Function.update s.locks input.threadId (some c)
  have hnext : r.row.nextNode = some "capacity" :=
    (Prod.mk.inj (evaluate_allowed_iff.mp h.allowed).boundary).2
  have hpointer : r.row.currentCheckpointId ≠ none := by
    rw [h.canonical]
    exact Option.some_ne_none _
  have h₀ : ApplyState.enter input (o 0) s.db = .reserving input command :=
    ApplyState.enter_permitted h.thread h.permitted
  have h₂ : ApplyState.request c ctx (o 2) s.locks = (.loading ctx, locks₁) :=
    ApplyState.request_free (h.available 2).1 h.unlocked
  have h₃ : ApplyState.load ctx db₁ = .reading ctx r.row :=
    ApplyState.load_stable h.thread h.status h.version hpointer
  have h₄ : ApplyState.read ctx r.row (o 4) db₁ = .claiming ctx r.row source := by
    refine ApplyState.read_allowed (h.available 4).2.1 ?_ h.allowed
    rw [h.canonical]
    exact h.stored
  let db₂ : Db := (db₁.setThread input.threadId (r.claimed .overriding none)).raise input.threadId
    command.overrideId
  have h₅ : ApplyState.claim ctx r.row source db₁ = (.marking ctx r.row source, db₂) :=
    ApplyState.claim_stable h.thread h.status h.canonical hnext
  refine ⟨db₂, locks₁, row, ?_, hrow, hfound, ?_, ?_, rfl⟩
  · show exec _ _ [o 0, o 1, o 2, o 3, o 4, o 5] = _
    refine exec_cons_eq_some.mpr ⟨_, congrArg (fun st => some (st, s.db, s.locks)) h₀, ?_⟩
    refine exec_cons_eq_some.mpr ⟨_, congrArg (some ∘ ApplyState.step.keep s.locks) hreserve, ?_⟩
    refine exec_cons_eq_some.mpr ⟨_, congrArg (some ∘ ApplyState.step.share db₁) h₂, ?_⟩
    refine exec_cons_eq_some.mpr ⟨_, congrArg (fun st => some (st, db₁, locks₁)) h₃, ?_⟩
    refine exec_cons_eq_some.mpr ⟨_, congrArg (fun st => some (st, db₁, locks₁)) h₄, ?_⟩
    exact exec_cons_eq_some.mpr ⟨_, congrArg (some ∘ ApplyState.step.keep locks₁) h₅, rfl⟩
  · show ledger.rows.find? _ = some row
    rw [hrows, List.find?_append]
    have hnone : s.db.ledger.rows.find? (fun r => decide (r.idempotencyKey = command.idempotencyKey)) =
        none := hkey
    rw [hnone, hrow]
    simp [RuntimeOverride.reserve]
  · show (db₁.setThread input.threadId (r.claimed .overriding none)).threads input.threadId = _
    rw [Db.threads_setThread, if_pos rfl]

/-- Nine statements take it to the promotion of its candidate. -/
theorem exec_prepared (h : Admitted worker s c input o command r source record nextNodes) :
    ∃ db locks row,
      exec (solo worker.runtime c) (.entered input, s.db, s.locks) ((List.range 9).map o) =
        some (.promoting (contextOf input command) record, db, locks) ∧
      Prepared db (contextOf input command) r source record row := by
  obtain ⟨db, locks, row, hrun, hrow, hfound, hbyKey, hthread, hstore⟩ := exec_claimed h
  let ctx := contextOf input command
  let row₁ : RuntimeOverride :=
    { row with
      status := .applying
      decision := some .allowed
      beforeStateVersion := some r.row.stateVersion
      sourceCheckpointId := some source.checkpointId
      startedAt := some (o 6).now }
  let row₂ : RuntimeOverride := { row₁ with resultCheckpointId := some record.checkpointId }
  have hid : command.overrideId = row.overrideId := by rw [hrow]; rfl
  have hfound₁ : (db.setRow row₁).ledger.find command.overrideId = some row₁ := by
    rw [hid] at hfound ⊢
    exact Table.find_replace_self hfound
  obtain ⟨db', hsaved⟩ := Option.ne_none_iff_exists'.mp h.saved
  obtain ⟨hfresh, hparent, -⟩ := Db.saveCheckpoint_eq_some.mp hsaved
  rw [← hstore] at hfresh hparent
  let db₁ : Db := { db.setRow row₁ with
    store := Function.update db.store (record.threadId, record.checkpointId) (some record) }
  have h₆ : ApplyState.mark ctx r.row source (o 6) db = (.updating ctx r.row source, db.setRow row₁) :=
    ApplyState.mark_pending hfound (by rw [hrow]; rfl)
  have h₇ : ApplyState.update worker.runtime ctx r.row source (o 7) (db.setRow row₁) =
      some (.attaching ctx record, db₁) :=
    ApplyState.update_written h.written (Db.saveCheckpoint_eq_some.mpr ⟨hfresh, hparent, rfl⟩)
      h.valid
  have hnone : row₁.resultCheckpointId = none := by
    show row.resultCheckpointId = none
    rw [hrow]
    rfl
  have h₈ : ApplyState.attach ctx record db₁ = (.promoting ctx record, db₁.setRow row₂) :=
    ApplyState.attach_applying hfound₁ rfl hnone
  have hsplit : (List.range 9).map o = (List.range 6).map o ++ [o 6, o 7, o 8] := rfl
  refine ⟨db₁.setRow row₂, locks, row₂, ?_, ?_⟩
  · rw [hsplit]
    refine exec_append_eq_some.mpr ⟨_, hrun, ?_⟩
    refine exec_cons_eq_some.mpr ⟨_, congrArg (some ∘ ApplyState.step.keep locks) h₆, ?_⟩
    refine exec_cons_eq_some.mpr
      ⟨_, congrArg (Option.map (ApplyState.step.keep locks)) h₇, ?_⟩
    exact exec_cons_eq_some.mpr ⟨_, congrArg (some ∘ ApplyState.step.keep locks) h₈, rfl⟩
  · refine ⟨?_, ?_, rfl, rfl, rfl, ?_, ?_, ?_, ?_, ?_, hthread⟩
    · show (db₁.setRow row₂).ledger.find command.overrideId = some row₂
      rw [hid] at hfound₁ ⊢
      exact Table.find_replace_self hfound₁
    · exact Db.byKey_setRow (Db.byKey_setRow hbyKey rfl rfl) rfl rfl
    · show row.threadId = input.threadId
      obtain ⟨role, -, hcommand, -⟩ := ApplyInput.buildCommand_ok h.permitted.built
      rw [hrow, hcommand]
      rfl
    · show row.expectedVersion = command.expectedVersion
      rw [hrow]
      rfl
    · show row.expectedNextNode = command.expectedNextNode
      rw [hrow]
      rfl
    · show row.operatorId = command.operatorId
      rw [hrow]
      rfl
    · show row.payloadFingerprint = command.fingerprint
      rw [hrow]
      rfl

theorem Prepared.promotable_iff {ctx : ApplyContext} (hp : Prepared db ctx r source record row)
    (hversion : r.row.stateVersion = ctx.command.expectedVersion)
    (hpointer : r.row.currentCheckpointId = some source.checkpointId) :
    row.promotable (r.claimed .overriding none).row record.checkpointId = true ↔
      r.row.nextNode = ctx.command.expectedNextNode := by
  rw [RuntimeOverride.promotable_iff, hp.expectedNextNode]
  constructor
  · rintro ⟨-, -, -, -, -, hnext⟩
    exact hnext
  · intro hnext
    refine ⟨Or.inl hp.status, hp.result, rfl, ?_, ?_, hnext⟩
    · rw [hp.source]
      exact hpointer
    · rw [hp.expectedVersion]
      exact hversion

/-- Twelve statements take it to its end, with the override applied. -/
theorem exec_applied (h : Admitted worker s c input o command r source record nextNodes)
    (hnext : r.row.nextNode = command.expectedNextNode) :
    ∃ db locks row r',
      exec (solo worker.runtime c) (.entered input, s.db, s.locks) ((List.range 12).map o) =
        some (.done (.returned row false), db, locks) ∧
      db.ledger.find row.overrideId = some row ∧ db.byKey command.idempotencyKey = some row ∧
      row.status = .applied ∧ row.resultCheckpointId = some record.checkpointId ∧
      row.operatorId = command.operatorId ∧ row.payloadFingerprint = command.fingerprint ∧
      db.threads input.threadId = some r' ∧ r'.row.status = .stable ∧
      r'.row.stateVersion = r.row.stateVersion + 1 ∧
      r'.row.currentCheckpointId = some record.checkpointId := by
  obtain ⟨db, locks, row, hrun, hp⟩ := exec_prepared h
  obtain ⟨role, -, hcommand, -⟩ := ApplyInput.buildCommand_ok h.permitted.built
  have hversion : r.row.stateVersion = command.expectedVersion := by
    rw [hcommand]
    exact h.version
  let ctx := contextOf input command
  let row₁ := row.applyPromotion (r.row.stateVersion + 1) (o 9).now
  let r₁ := applyOverride (r.claimed .overriding none) row record.checkpointId
    record.serializedSizeBytes
  let db₁ := ((db.setRow row₁).setThread row.threadId r₁).lower row.threadId command.overrideId
  have hthread : db.threads row.threadId = some (r.claimed .overriding none) := by
    rw [hp.threadId]
    exact hp.thread
  have hcall : db.promoteApplied command.overrideId record.checkpointId
      record.serializedSizeBytes (o 9).now (o 9).commits = .ok (row₁, db₁) := by
    rw [(h.available 9).2.2]
    exact Db.promoteApplied_promotable hp.found hthread
      ((Prepared.promotable_iff hp hversion h.canonical).mpr hnext)
  have h₉ : ApplyState.promote ctx record (o 9) db = (.publishing ctx, db₁) := by
    unfold ApplyState.promote
    rw [show ctx.overrideId = command.overrideId from rfl, hcall]
  have hid : row.overrideId = command.overrideId := Table.find_key hp.found
  have hfound₁ : db₁.ledger.find command.overrideId = some row₁ := by
    have hfound := hp.found
    rw [Db.ledger_lower, ← hid]
    rw [show (contextOf input command).overrideId = row.overrideId from hid.symm] at hfound
    exact Table.find_replace_self hfound
  obtain ⟨status, h₁₀⟩ := ApplyState.publish_found ctx (o 10) hfound₁
  obtain ⟨locks', h₁₁⟩ := ApplyState.leave_returned c ctx
    (.returned (row₁.markEventStatus status) false) locks (h.available 11).1
  have hsplit : (List.range 12).map o = (List.range 9).map o ++ [o 9, o 10, o 11] := rfl
  refine ⟨db₁.setRow (row₁.markEventStatus status), locks', row₁.markEventStatus status, r₁, ?_, ?_,
    ?_, rfl, hp.result, hp.operatorId, hp.fingerprint, ?_, rfl, rfl, rfl⟩
  · rw [hsplit]
    refine exec_append_eq_some.mpr ⟨_, hrun, ?_⟩
    refine exec_cons_eq_some.mpr ⟨_, congrArg (some ∘ ApplyState.step.keep locks) h₉, ?_⟩
    refine exec_cons_eq_some.mpr ⟨_, congrArg (some ∘ ApplyState.step.keep locks) h₁₀, ?_⟩
    exact exec_cons_eq_some.mpr ⟨_, congrArg (some ∘ ApplyState.step.share _) h₁₁, rfl⟩
  · refine Table.find_replace_self (r := row₁) ?_
    show db₁.ledger.find row.overrideId = some row₁
    rw [hid]
    exact hfound₁
  · have hkey₁ : db₁.byKey command.idempotencyKey = some row₁ := by
      show List.find? _ db₁.ledger.rows = some row₁
      rw [Db.ledger_lower]
      exact Db.byKey_setRow hp.byKey rfl rfl
    exact Db.byKey_setRow hkey₁ rfl rfl
  · show db₁.threads input.threadId = some r₁
    rw [Db.threads_lower, Db.threads_setThread, hp.threadId]
    exact if_pos rfl

theorem exec_partial (h : Admitted worker s c input o command r source record nextNodes)
    (hnext : r.row.nextNode ≠ command.expectedNextNode) :
    ∃ db locks row,
      exec (solo worker.runtime c) (.entered input, s.db, s.locks) ((List.range 12).map o) =
        some (.done (.returned row false), db, locks) ∧ row.status = .partiallyDone := by
  obtain ⟨db, locks, row, hrun, hp⟩ := exec_prepared h
  obtain ⟨role, -, hcommand, -⟩ := ApplyInput.buildCommand_ok h.permitted.built
  have hversion : r.row.stateVersion = command.expectedVersion := by
    rw [hcommand]
    exact h.version
  let ctx := contextOf input command
  have hne : row.status ≠ .applied := by
    rw [hp.status]
    decide
  have hthread : db.threads row.threadId = some (r.claimed .overriding none) := by
    rw [hp.threadId]
    exact hp.thread
  have hprom : row.promotable (r.claimed .overriding none).row record.checkpointId = false := by
    rw [Bool.eq_false_iff]
    intro hprom
    exact hnext ((Prepared.promotable_iff hp hversion h.canonical).mp hprom)
  have hcall : db.promoteApplied ctx.overrideId record.checkpointId record.serializedSizeBytes
      (o 9).now (o 9).commits = .error .threadVersionConflict :=
    Db.promoteApplied_conflict hp.found hne hthread hprom
  have h₉ : ApplyState.promote ctx record (o 9) db =
      (.closing ctx (.markPartial "CHECKPOINT_PROMOTION_CONFLICT") true, db) := by
    unfold ApplyState.promote
    rw [hcall]
  let row₁ := row.markPartial "CHECKPOINT_PROMOTION_CONFLICT" (o 10).now
  have h₁₀ : ApplyState.close ctx (.markPartial "CHECKPOINT_PROMOTION_CONFLICT") true (o 10) db =
      (.leaving ctx false (.returned row₁ false), db.setRow row₁) := by
    unfold ApplyState.close Db.close Db.markPartial Db.updateRow
    simp only
    rw [show db.ledger.find ctx.overrideId = some row from hp.found]
    rfl
  obtain ⟨locks', h₁₁⟩ := ApplyState.leave_returned c ctx (.returned row₁ false) locks
    (h.available 11).1
  have hsplit : (List.range 12).map o = (List.range 9).map o ++ [o 9, o 10, o 11] := rfl
  refine ⟨db.setRow row₁, locks', row₁, ?_, ?_⟩
  · rw [hsplit]
    refine exec_append_eq_some.mpr ⟨_, hrun, ?_⟩
    refine exec_cons_eq_some.mpr ⟨_, congrArg (some ∘ ApplyState.step.keep locks) h₉, ?_⟩
    refine exec_cons_eq_some.mpr ⟨_, congrArg (some ∘ ApplyState.step.keep locks) h₁₀, ?_⟩
    exact exec_cons_eq_some.mpr ⟨_, congrArg (some ∘ ApplyState.step.share _) h₁₁, rfl⟩
  · show (row.markPartial _ _).status = _
    unfold RuntimeOverride.markPartial
    rw [if_neg hne]

theorem exec_replay_applied (hidle : s.calls c = .idle) (hr : s.db.threads input.threadId = some r)
    (hp : input.Permitted (o 0).uuid (o 0).now command) (hkey : s.db.byKey command.idempotencyKey = some row)
    (happ : row.status = .applied) (hop : row.operatorId = command.operatorId)
    (hfp : row.payloadFingerprint = command.fingerprint) :
    ∃ s', exec (step worker) s (replayRun c input o) = some s' ∧
      s'.calls c = .done (.returned row true) ∧ s'.db = s.db := by
  have h₀ : ApplyState.enter input (o 0) s.db = .reserving input command :=
    ApplyState.enter_permitted hr hp
  have h₁ := ApplyState.reserve_replay input hkey hop hfp
  have hresume : ApplyState.resumeFrom
      ⟨input.threadId, input.request, command, row.overrideId⟩ row true =
        .done (.returned row true) := by
    simp [ApplyState.resumeFrom, happ]
  rw [hresume] at h₁
  have hrun : exec (solo worker.runtime c) (.entered input, s.db, s.locks) [o 0, o 1] =
      some (.done (.returned row true), s.db, s.locks) := by
    refine exec_cons_eq_some.mpr ⟨_, congrArg (fun st => some (st, s.db, s.locks)) h₀, ?_⟩
    exact exec_cons_eq_some.mpr ⟨_, congrArg (some ∘ ApplyState.step.keep s.locks) h₁, rfl⟩
  refine ⟨s.withCall c (.done (.returned row true), s.db, s.locks), ?_, withCall_calls _ _ _, rfl⟩
  show exec (step worker) s (.beginApply c input :: [o 0, o 1].map (.advance c)) = _
  rw [exec_call hidle, hrun]
  rfl

/-- **An allowed override takes effect exactly when it names its next node.** -/
theorem takesEffect_iff (h : Admitted worker s c input o command r source record nextNodes) :
    TakesEffect worker s c input o r record ↔ input.request.expectedNextNode ≠ none := by
  obtain ⟨role, -, hcommand, -⟩ := ApplyInput.buildCommand_ok h.permitted.built
  have hallowed := evaluate_allowed_iff.mp h.allowed
  have hnode : command.expectedNextNode = input.request.expectedNextNode := by
    rw [hcommand]
    rfl
  have hboundary : r.row.nextNode = some "capacity" := (Prod.mk.inj hallowed.boundary).2
  rw [← hnode]
  constructor
  · rintro ⟨s', row, r', hrun, hdone, -, happ, -⟩ hnone
    have hne : r.row.nextNode ≠ command.expectedNextNode := by
      rw [hnone, hboundary]
      exact Option.some_ne_none _
    obtain ⟨db, locks, row₁, hsolo, hincomplete⟩ := exec_partial h hne
    unfold applyRun at hrun
    rw [exec_call h.idle, hsolo] at hrun
    rw [← Option.some.inj hrun, withCall_calls] at hdone
    cases hdone
    rw [hincomplete] at happ
    cases happ
  · intro hne
    have hnext : r.row.nextNode = command.expectedNextNode :=
      (hallowed.nextNode.resolve_left hne).symm
    obtain ⟨db, locks, row, r', hsolo, hfound, hkey, happ, hresult, hop, hfp, hr', hstable, hversion,
      hpointer⟩ := exec_applied h hnext
    refine ⟨s.withCall c (.done (.returned row false), db, locks), row, r', ?_, withCall_calls _ _ _,
      hfound, happ, hresult, hr', hstable, hversion, hpointer, ?_⟩
    · unfold applyRun
      rw [exec_call h.idle, hsolo]
      rfl
    · intro c' o' command' hidle hp'
      obtain ⟨role', -, hcommand', -⟩ := ApplyInput.buildCommand_ok hp'.built
      refine exec_replay_applied hidle hr' hp' ?_ happ ?_ ?_
      · rw [hcommand']
        rw [hcommand] at hkey
        exact hkey
      · rw [hop, hcommand, hcommand']
        rfl
      · rw [hfp, hcommand, hcommand']
        rfl

/-! ### With and without a next node -/

def breakdownCommand (expectedNextNode : Option String) : RuntimeOverrideCommand :=
  (breakdownInput "key-1" expectedNextNode).command "override-1" "OPERATOR" 10

theorem breakdown_admitted {expectedNextNode : Option String}
    (hnode : expectedNextNode = none ∨ expectedNextNode = some "capacity") :
    ∃ s r, exec (step exampleWorker) empty toEnvironment = some s ∧
      Admitted exampleWorker s 0 (breakdownInput "key-1" expectedNextNode) (fun _ => smooth)
        (breakdownCommand expectedNextNode) r (exampleRecord "c4" (some "c3") "environment" 4 "NORMAL")
        candidateRecord ["capacity"] := by
  have hrun : ((exec (step exampleWorker) empty toEnvironment).bind fun s =>
      (s.db.threads "thread").map fun r =>
        decide (s.calls 0 = .idle ∧ s.db.byKey "key-1" = none ∧
          s.db.ledger.find "override-1" = none ∧ s.locks "thread" = none ∧
          r.row.status = .stable ∧ r.row.stateVersion = 4 ∧
          r.row.currentCheckpointId = some "c4" ∧
          s.db.store ("thread", "c4") =
            some (exampleRecord "c4" (some "c3") "environment" 4 "NORMAL") ∧
          (r.row.currentNode, r.row.nextNode) = (some "environment", some "capacity") ∧
          (s.db.saveCheckpoint candidateRecord).isSome = true)) = some true := by
    decide +kernel
  obtain ⟨s, hs, hrun⟩ := Option.bind_eq_some_iff.mp hrun
  obtain ⟨r, hr, hrun⟩ := Option.map_eq_some_iff.mp hrun
  obtain ⟨hidle, hkey, hid, hlock, hstatus, hversion, hpointer, hstored, hboundary, hsaved⟩ :=
    of_decide_eq_true hrun
  have hnext : r.row.nextNode = some "capacity" := (Prod.mk.inj hboundary).2
  refine ⟨s, r, hs, hidle, ?_, hkey, hid, hlock, hr, hstatus, hversion, hpointer, hstored, ?_, ?_,
    rfl, Option.isSome_iff_ne_none.mp hsaved, ?_⟩
  · rcases hnode with rfl | rfl
    · exact ⟨by decide, rfl⟩
    · exact ⟨by decide, rfl⟩
  · have htransition : ("NORMAL", "BROKEN") ∈ allowedTransitions := by decide
    refine evaluate_allowed_iff.mpr ⟨hstatus, rfl, hboundary, ?_, htransition, rfl, rfl⟩
    rw [hnext]
    exact hnode
  · intro n
    exact ⟨rfl, rfl, rfl⟩
  · rw [hnext]
    rfl

/-- The request that names `capacity` takes effect. -/
theorem takesEffect_capacity : ∃ s r, exec (step exampleWorker) empty toEnvironment = some s ∧
    TakesEffect exampleWorker s 0 (breakdownInput "key-1" (some "capacity")) (fun _ => smooth) r
      candidateRecord := by
  obtain ⟨s, r, hs, hadm⟩ := breakdown_admitted (Or.inr rfl)
  exact ⟨s, r, hs, (takesEffect_iff hadm).mpr (Option.some_ne_none _)⟩

/-- **The request that leaves it open does not**: the policy allows it and the promotion refuses. -/
theorem open_next_node_not_applied :
    ¬ ∀ (s : System) (c : ℕ) (input : ApplyInput) (o : ℕ → Outcome)
        (command : RuntimeOverrideCommand) (r : ThreadRecord) (source record : CheckpointRecord)
        (nextNodes : List String),
      Admitted exampleWorker s c input o command r source record nextNodes →
      TakesEffect exampleWorker s c input o r record := by
  intro heffect
  obtain ⟨s, r, -, hadm⟩ := breakdown_admitted (Or.inl rfl)
  obtain ⟨s', row, r', hrun, hdone, -, happ, -⟩ := heffect _ _ _ _ _ _ _ _ _ hadm
  have hne : r.row.nextNode ≠ (breakdownCommand none).expectedNextNode := by
    rw [(Prod.mk.inj (evaluate_allowed_iff.mp hadm.allowed).boundary).2]
    exact Option.some_ne_none _
  obtain ⟨db, locks, row₁, hsolo, hincomplete⟩ := exec_partial hadm hne
  unfold applyRun at hrun
  rw [exec_call hadm.idle, hsolo] at hrun
  rw [← Option.some.inj hrun, withCall_calls] at hdone
  cases hdone
  rw [hincomplete] at happ
  cases happ

end System

end CountyFlow.Override
