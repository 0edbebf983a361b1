import Mathlib.Logic.Function.Basic
import CountyFlow.Override.Policy

/-!
# The database the runtime services share

`Db` holds the thread tables, the override ledger and the checkpoint store.  Each definition here is
one repository call on the whole of it: it finds the row the call is about, applies the row-level
method, and writes the result back.

`fence` is a history variable.  No call reads it; it remembers which override moved a thread to
`OVERRIDING` and is cleared when that same override promotes or releases.
-/

namespace CountyFlow.Override

open CountyFlow.Lib CountyFlow.Core CountyFlow.Runtime Function

/-- The tables and the checkpoint store, with the history variable `fence`. -/
structure Db where
  threads : String → Option ThreadRecord
  ledger : Ledger
  store : CheckpointStore
  fence : String → Option String

variable {db db' : Db} {row' row : RuntimeOverride} {record : CheckpointRecord}

namespace Db

def setThread (db : Db) (threadId : String) (record : ThreadRecord) : Db :=
  { db with threads := update db.threads threadId (some record) }

def setRow (db : Db) (row : RuntimeOverride) : Db := { db with ledger := db.ledger.replace row }

def raise (db : Db) (threadId overrideId : String) : Db :=
  { db with fence := update db.fence threadId (some overrideId) }

/-- The override leaves the fence it raised, if it is still its own. -/
def lower (db : Db) (threadId overrideId : String) : Db :=
  if db.fence threadId = some overrideId then
    { db with fence := update db.fence threadId none }
  else db

/-- `select(RuntimeOverride).where(idempotency_key == key)`. -/
def byKey (db : Db) (idempotencyKey : String) : Option RuntimeOverride :=
  db.ledger.rows.find? fun row => row.idempotencyKey = idempotencyKey

/-! ### The ledger -/

/-- `begin_or_replay`: the row, and whether it was there before. -/
def beginOrReplay (db : Db) (command : RuntimeOverrideCommand) (intentExpiresAt : ℕ) :
    Except LedgerError (RuntimeOverride × Bool × Db) :=
  match db.byKey command.idempotencyKey with
  | some row => (row.replay command).map fun row => (row, true, db)
  | none =>
    match db.threads command.threadId with
    | none => .error (.lookupError command.threadId)
    | some thread =>
      let row := RuntimeOverride.reserve command thread.row.taskId intentExpiresAt
      match db.ledger.add row with
      | none => .error .integrityError
      | some ledger => .ok (row, false, { db with ledger := ledger })

/-- A method on the row `_required` finds. -/
def updateRow (db : Db) (overrideId : String)
    (method : RuntimeOverride → Except LedgerError RuntimeOverride) :
    Except LedgerError (RuntimeOverride × Db) :=
  match db.ledger.find overrideId with
  | none => .error (.lookupError overrideId)
  | some row => (method row).map fun row' => (row', db.setRow row')

def markApplying (db : Db) (overrideId : String) (beforeStateVersion : ℕ)
    (sourceCheckpointId : String) (startedAt : ℕ) : Except LedgerError (RuntimeOverride × Db) :=
  db.updateRow overrideId fun row => row.markApplying beforeStateVersion sourceCheckpointId startedAt

def attachResultCheckpoint (db : Db) (overrideId checkpointId : String) :
    Except LedgerError (RuntimeOverride × Db) :=
  db.updateRow overrideId fun row => row.attachResultCheckpoint checkpointId

def finish (db : Db) (overrideId : String) (status : FinalStatus)
    (decision : RuntimeOverrideDecision) (errorCode : String) (completedAt : ℕ) :
    Except LedgerError (RuntimeOverride × Db) :=
  db.updateRow overrideId fun row => .ok (row.finish status decision errorCode completedAt)

def markPartial (db : Db) (overrideId errorCode : String) (completedAt : ℕ) :
    Except LedgerError (RuntimeOverride × Db) :=
  db.updateRow overrideId fun row => .ok (row.markPartial errorCode completedAt)

def markEventStatus (db : Db) (overrideId eventStatus : String) :
    Except LedgerError (RuntimeOverride × Db) :=
  db.updateRow overrideId fun row => .ok (row.markEventStatus eventStatus)

/-- `promote_applied`: the row and the thread in one transaction. -/
def promoteApplied (db : Db) (overrideId resultCheckpointId : String)
    (checkpointSizeBytes completedAt : ℕ) (commits : Bool) :
    Except LedgerError (RuntimeOverride × Db) :=
  match db.ledger.find overrideId with
  | none => .error (.lookupError overrideId)
  | some row =>
    if row.status = .applied then .ok (row, db)
    else match db.threads row.threadId with
      | none => .error (.lookupError row.threadId)
      | some thread =>
        (Override.promoteApplied row thread resultCheckpointId checkpointSizeBytes completedAt
          commits).map fun (row', thread') =>
            (row', ((db.setRow row').setThread row.threadId thread').lower row.threadId
              overrideId)

/-! ### The threads -/

/-- A method on the thread of an id; `missing` is raised when there is none. -/
def updateThread (db : Db) (threadId : String) (missing : RuntimeThreadError)
    (method : ThreadRecord → Except RuntimeThreadError ThreadRecord) :
    Except RuntimeThreadError (RuntimeThread × Db) :=
  match db.threads threadId with
  | none => .error missing
  | some thread => (method thread).map fun thread' => (thread'.row, db.setThread threadId thread')

/-- `claim_override_boundary`, made for an override. -/
def claimOverrideBoundary (db : Db) (threadId expectedCheckpointId : String)
    (expectedStateVersion : ℕ) (expectedNextNode overrideId : String) :
    Except RuntimeThreadError (RuntimeThread × Db) :=
  (db.updateThread threadId (.boundaryClaimConflict "RUNTIME_BOUNDARY_CLAIM_CONFLICT") fun thread =>
    thread.claimOverrideBoundary expectedCheckpointId expectedStateVersion expectedNextNode).map
    fun (row, db') => (row, db'.raise threadId overrideId)

/-- `release_override_boundary`, made for an override. -/
def releaseOverrideBoundary (db : Db) (threadId expectedCheckpointId : String)
    (expectedStateVersion : ℕ) (expectedNextNode overrideId : String) :
    Except RuntimeThreadError (RuntimeThread × Db) :=
  (db.updateThread threadId (.boundaryClaimConflict "RUNTIME_BOUNDARY_RELEASE_CONFLICT")
    fun thread =>
      thread.releaseOverrideBoundary expectedCheckpointId expectedStateVersion expectedNextNode).map
    fun (row, db') => (row, db'.lower threadId overrideId)

def claimNextNode (db : Db) (threadId expectedCheckpointId : String) (expectedStateVersion : ℕ)
    (expectedNextNode workerConsumer : String) : Except RuntimeThreadError (RuntimeThread × Db) :=
  db.updateThread threadId (.boundaryClaimConflict "RUNTIME_BOUNDARY_CLAIM_CONFLICT") fun thread =>
    thread.claimNextNode expectedCheckpointId expectedStateVersion expectedNextNode workerConsumer

def promoteCheckpoint (db : Db) (command : PromoteCheckpoint) (commits : Bool) :
    Except RuntimeThreadError (RuntimeThread × Db) :=
  db.updateThread command.threadId (.lookupError command.threadId) fun thread =>
    thread.promoteCheckpoint command commits

def markResumed (db : Db) (threadId eventKey workerConsumer : String) (commits : Bool) :
    Except RuntimeThreadError (RuntimeThread × Db) :=
  db.updateThread threadId (.lookupError threadId) fun thread =>
    thread.markResumed eventKey workerConsumer commits

def markTerminal (db : Db) (threadId eventKey workerConsumer : String)
    (currentNode errorCode : Option String) (now : ℕ) (commits : Bool) :
    Except RuntimeThreadError (RuntimeThread × Db) :=
  db.updateThread threadId (.lookupError threadId) fun thread =>
    thread.markTerminal eventKey workerConsumer currentNode errorCode now commits

/-- The thread row `IdempotencyService.begin` inserts with a new task. -/
def createThread (db : Db) (taskId threadId : String) : Option Db :=
  match db.threads threadId with
  | some _ => none
  | none => some (db.setThread threadId (ThreadRecord.create taskId threadId))

/-- The saver writes a checkpoint: its id is new in its thread, and its parent is already stored. -/
def saveCheckpoint (db : Db) (record : CheckpointRecord) : Option Db :=
  if db.store (record.threadId, record.checkpointId) = none ∧
      ∀ parent ∈ record.parentCheckpointId, db.store (record.threadId, parent) ≠ none then
    some { db with
      store := update db.store (record.threadId, record.checkpointId) (some record) }
  else none

/-! ### Reading a database after a write -/

@[simp] theorem ledger_setThread (db : Db) (t : String) (r : ThreadRecord) :
    (db.setThread t r).ledger = db.ledger := rfl

theorem threads_setThread (db : Db) (t t' : String) (r : ThreadRecord) :
    (db.setThread t r).threads t' = if t' = t then some r else db.threads t' := by
  simp only [setThread, update_apply]

@[simp] theorem threads_raise (db : Db) (t ov : String) : (db.raise t ov).threads = db.threads := rfl

@[simp] theorem ledger_raise (db : Db) (t ov : String) : (db.raise t ov).ledger = db.ledger := rfl

@[simp] theorem store_raise (db : Db) (t ov : String) : (db.raise t ov).store = db.store := rfl

@[simp] theorem threads_lower (db : Db) (t ov : String) : (db.lower t ov).threads = db.threads := by
  unfold lower
  split <;> rfl

@[simp] theorem ledger_lower (db : Db) (t ov : String) : (db.lower t ov).ledger = db.ledger := by
  unfold lower
  split <;> rfl

@[simp] theorem store_lower (db : Db) (t ov : String) : (db.lower t ov).store = db.store := by
  unfold lower
  split <;> rfl

theorem fence_lower (db : Db) (t ov t' : String) :
    (db.lower t ov).fence t' =
      if t' = t ∧ db.fence t = some ov then none else db.fence t' := by
  unfold lower
  by_cases h : db.fence t = some ov
  · rw [if_pos h]
    by_cases ht : t' = t
    · subst ht
      simp [h]
    · simp [ht]
  · simp [h]

/-! ### What a call that returns has done -/

theorem updateRow_ok {ov : String} {method : RuntimeOverride → Except LedgerError RuntimeOverride}
    (h : db.updateRow ov method = .ok (row', db')) :
    ∃ row, db.ledger.find ov = some row ∧ method row = .ok row' ∧ db' = db.setRow row' := by
  unfold updateRow at h
  split at h
  · cases h
  · rename_i row hrow
    cases hm : method row with
    | error e => rw [hm] at h; cases h
    | ok r =>
      rw [hm] at h
      obtain ⟨h1, h2⟩ := Prod.mk.inj (Except.ok.inj h)
      exact ⟨row, hrow, by rw [hm, h1], by rw [← h2, h1]⟩

theorem updateThread_ok {t : String} {missing : RuntimeThreadError} {row : RuntimeThread}
    {method : ThreadRecord → Except RuntimeThreadError ThreadRecord}
    (h : db.updateThread t missing method = .ok (row, db')) :
    ∃ r r', db.threads t = some r ∧ method r = .ok r' ∧ row = r'.row ∧ db' = db.setThread t r' := by
  unfold updateThread at h
  split at h
  · cases h
  · rename_i r hr
    cases hm : method r with
    | error e => rw [hm] at h; cases h
    | ok r' =>
      rw [hm] at h
      obtain ⟨h1, h2⟩ := Prod.mk.inj (Except.ok.inj h)
      exact ⟨r, r', hr, hm, h1.symm, h2.symm⟩

theorem byKey_eq_some {key : String} (h : db.byKey key = some row) :
    db.ledger.find row.overrideId = some row ∧ row.idempotencyKey = key :=
  ⟨Table.find_of_mem (List.mem_of_find?_eq_some h), by simpa using List.find?_some h⟩

theorem beginOrReplay_ok {c : RuntimeOverrideCommand} {expires : ℕ} {replayed : Bool}
    (h : db.beginOrReplay c expires = .ok (row, replayed, db')) :
    (replayed = true ∧ db' = db ∧ db.byKey c.idempotencyKey = some row ∧
        row.operatorId = c.operatorId ∧ row.payloadFingerprint = c.fingerprint) ∨
      (replayed = false ∧ db.byKey c.idempotencyKey = none ∧
        ∃ t ledger, db.threads c.threadId = some t ∧
          row = RuntimeOverride.reserve c t.row.taskId expires ∧
          db.ledger.add row = some ledger ∧ db' = { db with ledger := ledger }) := by
  unfold beginOrReplay at h
  split at h
  · rename_i found hfound
    cases hr : found.replay c with
    | error e => rw [hr] at h; cases h
    | ok r =>
      rw [hr] at h
      obtain ⟨h1, h2⟩ := Prod.mk.inj (Except.ok.inj h)
      obtain ⟨h2, h3⟩ := Prod.mk.inj h2
      obtain ⟨hsame, hop, hfp⟩ := RuntimeOverride.replay_ok hr
      rw [hsame] at h1
      subst h1
      exact .inl ⟨h2.symm, h3.symm, hfound, hop, hfp⟩
  · rename_i hkey
    split at h
    · cases h
    · rename_i t ht
      simp only at h
      split at h
      · cases h
      · rename_i ledger hadd
        obtain ⟨h1, h2⟩ := Prod.mk.inj (Except.ok.inj h)
        obtain ⟨h2, h3⟩ := Prod.mk.inj h2
        exact .inr ⟨h2.symm, hkey, t, ledger, ht, h1.symm, by rw [← h1]; exact hadd, h3.symm⟩

theorem promoteApplied_ok {ov c : String} {size now : ℕ} {commits : Bool}
    (h : db.promoteApplied ov c size now commits = .ok (row', db')) :
    ∃ row, db.ledger.find ov = some row ∧
      ((row.status = .applied ∧ row' = row ∧ db' = db) ∨
        ∃ t, db.threads row.threadId = some t ∧ row.promotable t.row c = true ∧ commits = true ∧
          row' = row.applyPromotion (t.row.stateVersion + 1) now ∧
          db' = ((db.setRow row').setThread row.threadId (applyOverride t row c size)).lower
            row.threadId ov) := by
  unfold promoteApplied at h
  split at h
  · cases h
  · rename_i row hrow
    refine ⟨row, hrow, ?_⟩
    split at h
    · rename_i hs
      obtain ⟨h1, h2⟩ := Prod.mk.inj (Except.ok.inj h)
      exact .inl ⟨hs, h1.symm, h2.symm⟩
    · rename_i hs
      split at h
      · cases h
      · rename_i t ht
        cases hp : Override.promoteApplied row t c size now commits with
        | error e => rw [hp] at h; cases h
        | ok p =>
          obtain ⟨r', t'⟩ := p
          rw [hp] at h
          obtain ⟨h1, h2⟩ := Prod.mk.inj (Except.ok.inj h)
          obtain ⟨hs', -, -⟩ | ⟨hprom, hc, hr', ht'⟩ := Override.promoteApplied_ok hp
          · exact absurd hs' hs
          · refine .inr ⟨t, ht, hprom, hc, by rw [← h1, hr'], ?_⟩
            rw [← h2, ← h1, ht']

theorem claimOverrideBoundary_ok {db db' : Db} {t c n ov : String} {v : ℕ} {row : RuntimeThread}
    (h : db.claimOverrideBoundary t c v n ov = .ok (row, db')) :
    ∃ r, db.threads t = some r ∧ r.atBoundary .stable c v n = true ∧
      db' = (db.setThread t (r.claimed .overriding none)).raise t ov := by
  unfold claimOverrideBoundary at h
  cases hu : db.updateThread t (.boundaryClaimConflict "RUNTIME_BOUNDARY_CLAIM_CONFLICT")
      fun thread => thread.claimOverrideBoundary c v n with
  | error e => rw [hu] at h; cases h
  | ok p =>
    obtain ⟨row', db₁⟩ := p
    rw [hu] at h
    obtain ⟨r, r', hr, hm, -, rfl⟩ := updateThread_ok hu
    obtain ⟨hb, rfl⟩ := ThreadRecord.claimBoundary_ok hm
    obtain ⟨-, h2⟩ := Prod.mk.inj (Except.ok.inj h)
    exact ⟨r, hr, hb, h2.symm⟩

theorem ledger_claimOverrideBoundary {db db' : Db} {t c n ov : String} {v : ℕ} {row : RuntimeThread}
    (h : db.claimOverrideBoundary t c v n ov = .ok (row, db')) : db'.ledger = db.ledger := by
  obtain ⟨r, -, -, rfl⟩ := claimOverrideBoundary_ok h
  rfl

theorem releaseOverrideBoundary_ok {db db' : Db} {t c n ov : String} {v : ℕ} {row : RuntimeThread}
    (h : db.releaseOverrideBoundary t c v n ov = .ok (row, db')) :
    ∃ r, db.threads t = some r ∧ r.atBoundary .overriding c v n = true ∧
      db' = (db.setThread t r.released).lower t ov := by
  unfold releaseOverrideBoundary at h
  cases hu : db.updateThread t (.boundaryClaimConflict "RUNTIME_BOUNDARY_RELEASE_CONFLICT")
      fun thread => thread.releaseOverrideBoundary c v n with
  | error e => rw [hu] at h; cases h
  | ok p =>
    obtain ⟨row', db₁⟩ := p
    rw [hu] at h
    obtain ⟨r, r', hr, hm, -, rfl⟩ := updateThread_ok hu
    obtain ⟨hb, rfl⟩ := ThreadRecord.releaseOverrideBoundary_ok hm
    obtain ⟨-, h2⟩ := Prod.mk.inj (Except.ok.inj h)
    exact ⟨r, hr, hb, h2.symm⟩

theorem ledger_releaseOverrideBoundary {db db' : Db} {t c n ov : String} {v : ℕ} {row : RuntimeThread}
    (h : db.releaseOverrideBoundary t c v n ov = .ok (row, db')) : db'.ledger = db.ledger := by
  obtain ⟨r, -, -, rfl⟩ := releaseOverrideBoundary_ok h
  rw [ledger_lower, ledger_setThread]

theorem saveCheckpoint_eq_some :
    db.saveCheckpoint record = some db' ↔
      db.store (record.threadId, record.checkpointId) = none ∧
        (∀ parent ∈ record.parentCheckpointId, db.store (record.threadId, parent) ≠ none) ∧
        db' = { db with
          store := update db.store (record.threadId, record.checkpointId) (some record) } := by
  unfold saveCheckpoint
  split
  · rename_i h
    rw [Option.some.injEq]
    exact ⟨fun he => ⟨h.1, h.2, he.symm⟩, fun he => he.2.2.symm⟩
  · rename_i h
    constructor
    · intro he
      cases he
    · rintro ⟨h1, h2, -⟩
      exact absurd ⟨h1, h2⟩ h

/-- The saver's writes are those that the ancestry rests on. -/
theorem saveCheckpoint_saved (h : db.saveCheckpoint record = some db')
    (hstore : Saved db.store) : Saved db'.store := by
  obtain ⟨hnew, hparent, rfl⟩ := saveCheckpoint_eq_some.mp h
  exact hstore.save hnew hparent

end Db

end CountyFlow.Override
