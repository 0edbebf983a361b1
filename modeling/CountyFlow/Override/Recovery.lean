import CountyFlow.Override.Owner

/-!
# Returning a fenced thread

An owner is only useful if somebody can act on it.  This file runs the two remedies on a fence nobody
is working on: the operator sends the request again, and the override is reconciled.
-/

namespace CountyFlow.Override

open CountyFlow.Lib CountyFlow.Core CountyFlow.Runtime Function

/-! ### Sending a request again -/

/-- The request of a row, sent by its operator. -/
def RuntimeOverride.asInput (row : RuntimeOverride) (role : String) : ApplyInput where
  threadId := row.payloadFingerprint.threadId
  request :=
    { idempotencyKey := row.idempotencyKey
      entityType := row.payloadFingerprint.entityType
      entityId := row.payloadFingerprint.entityId
      field := row.payloadFingerprint.field
      oldValue := row.payloadFingerprint.oldValue
      newValue := row.payloadFingerprint.newValue
      reason := row.payloadFingerprint.reason
      expectedVersion := row.payloadFingerprint.expectedVersion
      expectedNextNode := row.payloadFingerprint.expectedNextNode }
  principal :=
    { subjectId := row.operatorId, roles := [role], permissions := [runtimeOverridePermission] }

/-- The request of the row passes the checks of its command. -/
def Posed (row : RuntimeOverride) : Prop :=
  ∃ role, ∀ now, ((row.asInput role).command row.overrideId role now).postInit = .ok ()

theorem reserve_posed {c : RuntimeOverrideCommand} (h : c.postInit = .ok ()) (taskId : String)
    (expires : ℕ) : Posed (RuntimeOverride.reserve c taskId expires) :=
  ⟨c.operatorRole, fun _ => h⟩

theorem Posed.same {a b : RuntimeOverride} (h : Posed a) (hs : RuntimeOverride.SameRequest a b) :
    Posed b := by
  obtain ⟨role, hpost⟩ := h
  refine ⟨role, fun now => ?_⟩
  have hinput : b.asInput role = a.asInput role := by
    simp only [RuntimeOverride.asInput, hs.payloadFingerprint, hs.idempotencyKey, hs.operatorId]
  rw [hinput, hs.overrideId]
  exact hpost now

theorem Posed.permitted {row : RuntimeOverride} {role : String}
    (h : ∀ now, ((row.asInput role).command row.overrideId role now).postInit = .ok ()) (now : ℕ) :
    (row.asInput role).Permitted row.overrideId now
      ((row.asInput role).command row.overrideId role now) := by
  refine ⟨List.mem_singleton.mpr rfl, ?_⟩
  have hrole : sortedHead (row.asInput role).principal.roles = some role := rfl
  unfold ApplyInput.buildCommand
  simp only [hrole, h now]
  rfl

variable {a : Action} {ov : String} {i n : ℕ} {config : RuntimeConfig} {db : Db} {locks : Locks}

namespace System

variable {worker : WorkerConfig}

/-- The request of every row can be sent again, and there is somebody to send it. -/
structure Replayable (s : System) : Prop where
  keys : ∀ ov ov' row row', s.db.ledger.find ov = some row → s.db.ledger.find ov' = some row' →
    row.idempotencyKey = row'.idempotencyKey → ov = ov'
  posed : ∀ ov row, s.db.ledger.find ov = some row → Posed row
  idleCalls : ∃ n, ∀ c, n ≤ c → s.calls c = .idle
  idleReconciles : ∃ n, ∀ i, n ≤ i → s.reconciles i = .idle

theorem Replayable.byKey {s : System} (h : s.Replayable) {row : RuntimeOverride}
    (hrow : s.db.ledger.find ov = some row) : s.db.byKey row.idempotencyKey = some row := by
  cases hk : s.db.byKey row.idempotencyKey with
  | none =>
    have hnone := List.find?_eq_none.mp hk row (Table.find_mem hrow)
    simp at hnone
  | some row' =>
    obtain ⟨hfound, hkey⟩ := Db.byKey_eq_some hk
    have hid := h.keys _ _ _ _ hfound hrow hkey
    rw [hid, hrow] at hfound
    exact hfound.symm

/-- A row goes on, or is reserved by this step. -/
theorem step_row {s s' : System} (hok : s.Tended a) (h : step worker s a = some s') {row' : RuntimeOverride}
    (hrow' : s'.db.ledger.find ov = some row') :
    (∃ row, s.db.ledger.find ov = some row ∧ row.Continues row') ∨
      ∃ c o input command taskId, a = .advance c o ∧ s.calls c = .reserving input command ∧
        s.db.ledger.find ov = none ∧ s.db.byKey command.idempotencyKey = none ∧
        row' = RuntimeOverride.reserve command taskId (command.requestedAt + intentTtl) := by
  have hsame : s'.db = s.db → ∃ row, s.db.ledger.find ov = some row ∧ row.Continues row' := by
    intro hdb
    rw [hdb] at hrow'
    exact ⟨row', hrow', RuntimeOverride.Continues.refl row'⟩
  cases a with
  | beginApply c input =>
    simp only [step] at h
    split at h
    · cases h; exact .inl (hsame rfl)
    · cases h
  | advance c o =>
    obtain ⟨⟨st, db, locks⟩, hstep, rfl⟩ := Option.map_eq_some_iff.mp h
    obtain ⟨row, hrow, hcont, -⟩ | ⟨input, command, taskId, hst, hnone, hkey, hnew⟩ :=
      call_row hstep hrow'
    · exact .inl ⟨row, hrow, hcont⟩
    · exact .inr ⟨c, o, input, command, taskId, rfl, hst, hnone, hkey, hnew⟩
  | crash c =>
    simp only [step] at h
    split at h
    · cases h; exact .inl (hsame rfl)
    · cases h
  | expireLock t => cases h; exact .inl (hsame rfl)
  | beginReconcile i ov =>
    simp only [step] at h
    split at h
    · cases h; exact .inl (hsame rfl)
    · cases h
  | advanceReconcile i o =>
    obtain ⟨⟨st, db⟩, hstep, rfl⟩ := Option.map_eq_some_iff.mp h
    obtain ⟨row, hrow, hcont, -⟩ := reconcile_row hstep hrow'
    exact .inl ⟨row, hrow, hcont⟩
  | crashReconcile i =>
    simp only [step] at h
    split at h
    · cases h; exact .inl (hsame rfl)
    · cases h
  | _ => cases hok

/-- A step moves one call and one reconciliation at most. -/
theorem step_idle {s s' : System} (h : step worker s a = some s') :
    (∃ c, ∀ c', c' ≠ c → s'.calls c' = s.calls c') ∧
      ∃ i, ∀ i', i' ≠ i → s'.reconciles i' = s.reconciles i' := by
  have hcall : ∀ (c : ℕ) (st : ApplyState), s'.calls = update s.calls c st →
      s'.reconciles = s.reconciles → (∃ c, ∀ c', c' ≠ c → s'.calls c' = s.calls c') ∧
        ∃ i, ∀ i', i' ≠ i → s'.reconciles i' = s.reconciles i' := by
    intro c st hc hr
    refine ⟨⟨c, fun c' hne => ?_⟩, 0, fun i' _ => by rw [hr]⟩
    rw [hc, update_of_ne hne]
  have hreconcile : ∀ (i : ℕ) (st : ReconcileState),
      s'.reconciles = update s.reconciles i st → s'.calls = s.calls →
      (∃ c, ∀ c', c' ≠ c → s'.calls c' = s.calls c') ∧
        ∃ i, ∀ i', i' ≠ i → s'.reconciles i' = s.reconciles i' := by
    intro i st hi hc
    refine ⟨⟨0, fun c' _ => by rw [hc]⟩, i, fun i' hne => ?_⟩
    rw [hi, update_of_ne hne]
  have hnone : s'.calls = s.calls → s'.reconciles = s.reconciles →
      (∃ c, ∀ c', c' ≠ c → s'.calls c' = s.calls c') ∧
        ∃ i, ∀ i', i' ≠ i → s'.reconciles i' = s.reconciles i' :=
    fun hc hr => ⟨⟨0, fun c' _ => by rw [hc]⟩, 0, fun i' _ => by rw [hr]⟩
  cases a with
  | beginApply c input =>
    simp only [step] at h
    split at h
    · cases h; exact hcall c _ rfl rfl
    · cases h
  | advance c o =>
    obtain ⟨⟨st, db, locks⟩, -, rfl⟩ := Option.map_eq_some_iff.mp h
    exact hcall c st rfl rfl
  | crash c =>
    simp only [step] at h
    split at h
    · cases h; exact hcall c _ rfl rfl
    · cases h
  | expireLock t => cases h; exact hnone rfl rfl
  | beginReconcile i ov =>
    simp only [step] at h
    split at h
    · cases h; exact hreconcile i _ rfl rfl
    · cases h
  | advanceReconcile i o =>
    obtain ⟨⟨st, db⟩, -, rfl⟩ := Option.map_eq_some_iff.mp h
    exact hreconcile i st rfl rfl
  | crashReconcile i =>
    simp only [step] at h
    split at h
    · cases h; exact hreconcile i _ rfl rfl
    · cases h
  | beginWorker w t =>
    simp only [step] at h
    split at h
    · cases h; exact hnone rfl rfl
    · cases h
  | advanceWorker w o =>
    obtain ⟨⟨st, db⟩, -, rfl⟩ := Option.map_eq_some_iff.mp h
    exact hnone rfl rfl
  | crashWorker w => cases h; exact hnone rfl rfl
  | saveCheckpoint record =>
    obtain ⟨db, -, rfl⟩ := Option.map_eq_some_iff.mp h
    exact hnone rfl rfl
  | createThread taskId t =>
    obtain ⟨db, -, rfl⟩ := Option.map_eq_some_iff.mp h
    exact hnone rfl rfl
  | terminate t key w node code now commits =>
    simp only [step] at h
    cases hm : s.db.markTerminal t key w node code now commits with
    | error e => rw [hm] at h; cases h
    | ok p => rw [hm] at h; cases h; exact hnone rfl rfl

/-- A tended step leaves somebody to send every request again. -/
theorem step_replayable {s s' : System} (hp : Provenance worker s) (hr : s.Replayable) (hok : s.Tended a)
    (h : step worker s a = some s') : s'.Replayable := by
  obtain ⟨⟨c, hcalls⟩, i, hreconciles⟩ := step_idle h
  refine ⟨?_, ?_, ?_, ?_⟩
  · -- Two rows of one key would be two old ones, or an old one under a key found free.
    have hfree : ∀ {ov row' command}, s'.db.ledger.find ov = some row' →
        s.db.ledger.find ov ≠ none → s.db.byKey command = none →
        row'.idempotencyKey ≠ command := by
      intro ov row' command hrow' hne hnone hkey
      obtain ⟨row, hrow, hcont⟩ | ⟨-, -, -, -, -, -, -, habsent, -⟩ := step_row hok h hrow'
      · have hmiss := List.find?_eq_none.mp hnone row (Table.find_mem hrow)
        rw [hcont.request.idempotencyKey] at hkey
        simp [hkey] at hmiss
      · exact hne habsent
    intro ov₁ ov₂ row₁ row₂ hrow₁ hrow₂ hkey
    obtain ⟨r₁, hr₁, hc₁⟩ | ⟨c₁, o₁, in₁, com₁, task₁, ha₁, hst₁, -, hk₁, rfl⟩ := step_row hok h hrow₁
    · obtain ⟨r₂, hr₂, hc₂⟩ | ⟨c₂, o₂, in₂, com₂, task₂, -, -, -, hk₂, rfl⟩ := step_row hok h hrow₂
      · rw [hc₁.request.idempotencyKey, hc₂.request.idempotencyKey] at hkey
        exact hr.keys _ _ _ _ hr₁ hr₂ hkey
      · exact absurd hkey (hfree hrow₁ (by rw [hr₁]; exact Option.some_ne_none _) hk₂)
    · obtain ⟨r₂, hr₂, -⟩ | ⟨c₂, o₂, in₂, com₂, task₂, ha₂, hst₂, -, -, rfl⟩ := step_row hok h hrow₂
      · exact absurd hkey.symm (hfree hrow₂ (by rw [hr₂]; exact Option.some_ne_none _) hk₁)
      · obtain ⟨rfl, -⟩ := Action.advance.inj (ha₁.symm.trans ha₂)
        obtain ⟨-, rfl⟩ := ApplyState.reserving.inj (hst₁.symm.trans hst₂)
        have hid₁ := Table.find_key hrow₁
        have hid₂ := Table.find_key hrow₂
        rw [← hid₁, ← hid₂]
        rfl
  · intro ov row' hrow'
    obtain ⟨row, hrow, hcont⟩ | ⟨c', o, input, command, taskId, -, hst, -, -, rfl⟩ :=
      step_row hok h hrow'
    · exact (hr.posed ov row hrow).same hcont.request
    · have hctx := hp.calls c'
      rw [hst] at hctx
      obtain ⟨ov', role, now, -, hpost⟩ := hctx
      exact reserve_posed hpost _ _
  · obtain ⟨n, hn⟩ := hr.idleCalls
    refine ⟨max n (c + 1), fun c' hc' => ?_⟩
    rw [hcalls c' (by omega)]
    exact hn c' (by omega)
  · obtain ⟨n, hn⟩ := hr.idleReconciles
    refine ⟨max n (i + 1), fun i' hi' => ?_⟩
    rw [hreconciles i' (by omega)]
    exact hn i' (by omega)

theorem Initial.replayable {s : System} (h : Initial s) : s.Replayable := by
  refine ⟨?_, ?_, ⟨0, fun c _ => h.calls c⟩, 0, fun i _ => h.reconciles i⟩
  · intro ov ov' row row' hrow
    rw [h.find] at hrow
    cases hrow
  · intro ov row hrow
    rw [h.find] at hrow
    cases hrow

theorem exec_replayable {s₀ s : System} {run : List Action} (h₀ : Initial s₀)
    (hok : Meets (step worker) Tended s₀ run) (hrun : exec (step worker) s₀ run = some s) : s.Replayable :=
  (exec_invariant (I := fun s => Provenance worker s ∧ s.Replayable)
    (fun _ _ _ hs hr hstep => ⟨step_provenance hs.1 hstep, step_replayable hs.1 hs.2 hr hstep⟩) hok
    hrun ⟨h₀.provenance, h₀.replayable⟩).2

/-! ### A reconciliation on its own -/

def withReconcile (s : System) (i : ℕ) (x : ReconcileState × Db) : System :=
  { s with db := x.2, reconciles := update s.reconciles i x.1 }

def soloReconcile (config : RuntimeConfig) (x : ReconcileState × Db) (o : Outcome) :
    Option (ReconcileState × Db) := ReconcileState.step config o x.2 x.1

theorem exec_advanceReconciles (s : System) (i : ℕ) (x : ReconcileState × Db) (os : List Outcome) :
    exec (step worker) (s.withReconcile i x) (os.map (.advanceReconcile i)) =
      (exec (soloReconcile worker.runtime) x os).map (s.withReconcile i) := by
  induction os generalizing x with
  | nil => rfl
  | cons o os ih =>
    have hstate : (s.withReconcile i x).reconciles i = x.1 := update_self _ _ _
    have hagain : ∀ y, (s.withReconcile i x).withReconcile i y = s.withReconcile i y := by
      intro y
      simp [withReconcile]
    have hstep : step worker (s.withReconcile i x) (.advanceReconcile i o) =
        (soloReconcile worker.runtime x o).map (s.withReconcile i) := by
      show (ReconcileState.step worker.runtime o x.2 ((s.withReconcile i x).reconciles i)).map
        ((s.withReconcile i x).withReconcile i) = _
      rw [hstate]
      congr 1
      funext y
      exact hagain y
    rw [List.map_cons, exec_cons, exec_cons, hstep]
    cases soloReconcile worker.runtime x o with
    | none => rfl
    | some y => exact ih y

theorem exec_reconcile {s : System} (hidle : s.reconciles i = .idle) (os : List Outcome) :
    exec (step worker) s (.beginReconcile i ov :: os.map (.advanceReconcile i)) =
      (exec (soloReconcile worker.runtime) (.fetching ov, s.db) os).map (s.withReconcile i) := by
  have hbegin : step worker s (.beginReconcile i ov) =
      some (s.withReconcile i (.fetching ov, s.db)) := by
    simp only [step, if_pos hidle]
    rfl
  rw [exec_cons, hbegin]
  exact exec_advanceReconciles s i _ os

/-- The world does what a remedy asks. -/
def steady (uuid : String) : Outcome where
  now := 0
  uuid := uuid
  lockAvailable := true
  storeAvailable := true
  update := .unavailable
  commits := true
  published := true

/-- The thread stands fenced at the boundary the row describes. -/
structure AtSource (db : Db) (row : RuntimeOverride) (r : ThreadRecord) : Prop where
  thread : db.threads row.threadId = some r
  status : r.row.status = .overriding
  pointer : row.sourceCheckpointId = r.row.currentCheckpointId
  version : row.expectedVersion = r.row.stateVersion
  nextNode : row.expectedNextNode = r.row.nextNode

theorem exec_reconcile_applied (uuid : String) {row : RuntimeOverride} {r : ThreadRecord}
    (hrow : db.ledger.find ov = some row) (hs : row.status = .partiallyDone) (hat : AtSource db row r)
    (hok : RowOk config db.store row) (hstore : StoreOk db.store) (hres : row.resultCheckpointId ≠ none) :
    ∃ st db' r', exec (soloReconcile config) (.fetching ov, db) (List.replicate 5 (steady uuid)) =
        some (st, db') ∧ db'.threads row.threadId = some r' ∧ r'.row.status = .stable := by
  obtain ⟨resultId, hresult⟩ := Option.ne_none_iff_exists'.mp hres
  obtain ⟨source, result, hsource, hsok, hstored, hvalid⟩ := hok.result resultId hresult
  obtain ⟨-, hid⟩ := hstore.filed _ _ _ hstored
  let o := steady uuid
  have h₀ : ReconcileState.fetch ov db = .comparing row := by
    simp [ReconcileState.fetch, hrow, hs]
  have h₁ : ReconcileState.compare row db = .loadingSource row source.checkpointId resultId := by
    simp [ReconcileState.compare, hat.thread, hat.status, ← hat.pointer, hat.version, hsource,
      hresult]
  have h₂ : ReconcileState.loadSource row source.checkpointId resultId o db =
      .loadingResult row (some source) resultId := by
    simp [ReconcileState.loadSource, o, steady, hsok.stored]
  have h₃ : ReconcileState.loadResult config row (some source) resultId o db =
      .promoting row result := by
    simp [ReconcileState.loadResult, o, steady, hstored, hvalid]
  have hprom : row.promotable r.row result.checkpointId = true := by
    rw [RuntimeOverride.promotable_iff, hid]
    exact ⟨Or.inr hs, hresult, hat.status, hat.pointer.symm, hat.version.symm, hat.nextNode.symm⟩
  have hkey : db.ledger.find row.overrideId = some row := by
    rw [Table.find_key hrow]
    exact hrow
  let row₁ := row.applyPromotion (r.row.stateVersion + 1) 0
  let r₁ := applyOverride r row result.checkpointId result.serializedSizeBytes
  let db₁ := ((db.setRow row₁).setThread row.threadId r₁).lower row.threadId row.overrideId
  have h₄ : ReconcileState.promote row result o db = (.done (.returned row₁ false), db₁) := by
    unfold ReconcileState.promote
    rw [show o.commits = true from rfl, show o.now = 0 from rfl,
      Db.promoteApplied_promotable hkey hat.thread hprom]
  refine ⟨.done (.returned row₁ false), db₁, r₁, ?_, ?_, rfl⟩
  · refine exec_cons_eq_some.mpr ⟨_, congrArg (fun st => some (st, db)) h₀, ?_⟩
    refine exec_cons_eq_some.mpr ⟨_, congrArg (fun st => some (st, db)) h₁, ?_⟩
    refine exec_cons_eq_some.mpr ⟨_, congrArg (fun st => some (st, db)) h₂, ?_⟩
    refine exec_cons_eq_some.mpr ⟨_, congrArg (fun st => some (st, db)) h₃, ?_⟩
    exact exec_cons_eq_some.mpr ⟨_, congrArg some h₄, rfl⟩
  · rw [Db.threads_lower, Db.threads_setThread]
    exact if_pos rfl

/-! ### A replay on its own -/

def replayContext (row : RuntimeOverride) (role : String) : ApplyContext :=
  ⟨row.payloadFingerprint.threadId, (row.asInput role).request,
    (row.asInput role).command row.overrideId role 0, row.overrideId⟩

theorem exec_replay_found {c : ℕ} {row : RuntimeOverride} {role : String} {r : ThreadRecord}
    (hposed : ∀ now, ((row.asInput role).command row.overrideId role now).postInit = .ok ())
    (hkey : db.byKey row.idempotencyKey = some row) (hfp : FingerprintOk row)
    (hr : db.threads row.threadId = some r) :
    exec (solo config c) (.entered (row.asInput role), db, locks)
        (List.replicate 2 (steady row.overrideId)) =
      some (ApplyState.resumeFrom (replayContext row role) row true, db, locks) := by
  have h₀ : ApplyState.enter (row.asInput role) (steady row.overrideId) db =
      .reserving (row.asInput role) ((row.asInput role).command row.overrideId role 0) := by
    refine ApplyState.enter_permitted (r := r) ?_ (Posed.permitted hposed 0)
    show db.threads row.payloadFingerprint.threadId = some r
    rw [hfp.threadId]
    exact hr
  have h₁ : ApplyState.reserve (row.asInput role)
      ((row.asInput role).command row.overrideId role 0) db =
        (ApplyState.resumeFrom (replayContext row role) row true, db) :=
    ApplyState.reserve_replay (row.asInput role) hkey rfl rfl
  refine exec_cons_eq_some.mpr ⟨_, congrArg (fun st => some (st, db, locks)) h₀, ?_⟩
  exact exec_cons_eq_some.mpr ⟨_, congrArg (some ∘ ApplyState.step.keep locks) h₁, rfl⟩

/-! ### Both remedies -/

/-- The request is sent again, and the override is reconciled. -/
def remedy (c i : ℕ) (row : RuntimeOverride) (role : String) (n m : ℕ) : List Action :=
  (.beginApply c (row.asInput role) ::
      (List.replicate n (steady row.overrideId)).map (.advance c)) ++
    .beginReconcile i row.overrideId ::
      (List.replicate m (steady row.overrideId)).map (.advanceReconcile i)

/-- Replaying its request and reconciling it makes the thread of the row `STABLE`. -/
def CanReturn (worker : WorkerConfig) (s : System) (row : RuntimeOverride) : Prop :=
  ∃ role c i n m s' r, exec (step worker) s (remedy c i row role n m) = some s' ∧
    s'.db.threads row.threadId = some r ∧ r.row.status = .stable

theorem exec_remedy {s : System} {c m : ℕ} {row : RuntimeOverride} {role : String} {st : ApplyState}
    {st' : ReconcileState} {db' : Db} (hc : s.calls c = .idle) (hi : s.reconciles i = .idle)
    (hreplay : exec (solo worker.runtime c) (.entered (row.asInput role), s.db, s.locks)
      (List.replicate n (steady row.overrideId)) = some (st, db, locks))
    (hreconcile : exec (soloReconcile worker.runtime) (.fetching row.overrideId, db)
      (List.replicate m (steady row.overrideId)) = some (st', db')) :
    exec (step worker) s (remedy c i row role n m) =
      some ((s.withCall c (st, db, locks)).withReconcile i (st', db')) := by
  refine exec_append_eq_some.mpr ⟨s.withCall c (st, db, locks), ?_, ?_⟩
  · rw [exec_call hc, hreplay]
    rfl
  · have hidle : (s.withCall c (st, db, locks)).reconciles i = .idle := hi
    rw [exec_reconcile hidle]
    show (exec (soloReconcile worker.runtime) (.fetching row.overrideId, db) _).map _ = _
    rw [hreconcile]
    rfl

section Remedies

variable {s : System} {row : RuntimeOverride} {r : ThreadRecord} {role : String} {c : ℕ}

/-- What the two remedies have to reach. -/
def Restores (worker : WorkerConfig) (s : System) (row : RuntimeOverride) (role : String) (c : ℕ) :
    Prop :=
  ∃ n m st db locks st' db' r',
    exec (solo worker.runtime c) (.entered (row.asInput role), s.db, s.locks)
        (List.replicate n (steady row.overrideId)) = some (st, db, locks) ∧
      exec (soloReconcile worker.runtime) (.fetching row.overrideId, db)
        (List.replicate m (steady row.overrideId)) = some (st', db') ∧
      db'.threads row.threadId = some r' ∧ r'.row.status = .stable

theorem restores_unattached (hok : RowOk worker.runtime s.db.store row)
    (hfound : exec (solo worker.runtime c) (.entered (row.asInput role), s.db, s.locks)
      (List.replicate 2 (steady row.overrideId)) =
        some (ApplyState.resumeFrom (replayContext row role) row true, s.db, s.locks))
    (hat : AtSource s.db row r) (hs : row.status = .applying) (hres : row.resultCheckpointId = none)
    (hnamed : row.expectedNextNode ≠ none) : Restores worker s row role c := by
  let ctx := replayContext row role
  let db₁ := (s.db.setThread ctx.threadId r.released).lower ctx.threadId row.overrideId
  have hctx : ctx.threadId = row.threadId := hok.fingerprint.threadId
  have hthread : s.db.threads ctx.threadId = some r := by
    rw [hctx]
    exact hat.thread
  have hresume : ApplyState.resumeFrom ctx row true = .recovering ctx row := by
    simp [ApplyState.resumeFrom, hs, hres]
  have h₂ : ApplyState.recover ctx row s.db = .releasing ctx row := by
    simp [ApplyState.recover, hthread, hat.status, hat.pointer, hat.version, hat.nextNode]
  have h₃ : ApplyState.release ctx row s.db = (ApplyState.interrupted ctx, db₁) := by
    unfold ApplyState.release
    rw [release_of_owner hthread hat.status hat.version hat.nextNode hat.pointer
      (hok.applying hs) hnamed]
    rfl
  rw [hresume] at hfound
  refine ⟨4, 0, ApplyState.interrupted ctx, db₁, s.locks, _, db₁, r.released, ?_, rfl, ?_, rfl⟩
  · show exec _ _ (List.replicate 2 _ ++ [steady row.overrideId, steady row.overrideId]) = _
    refine exec_append_eq_some.mpr ⟨_, hfound, ?_⟩
    refine exec_cons_eq_some.mpr ⟨_, congrArg (fun st => some (st, s.db, s.locks)) h₂, ?_⟩
    exact exec_cons_eq_some.mpr ⟨_, congrArg (some ∘ ApplyState.step.keep s.locks) h₃, rfl⟩
  · rw [Db.threads_lower, Db.threads_setThread, hctx]
    exact if_pos rfl

theorem restores_attached (hp : Provenance worker s) (hrow : s.db.ledger.find row.overrideId = some row)
    (hfound : exec (solo worker.runtime c) (.entered (row.asInput role), s.db, s.locks)
      (List.replicate 2 (steady row.overrideId)) =
        some (ApplyState.resumeFrom (replayContext row role) row true, s.db, s.locks))
    (hat : AtSource s.db row r) (hs : row.status = .applying)
    (hres : row.resultCheckpointId ≠ none) : Restores worker s row role c := by
  let ctx := replayContext row role
  let code := "RUNTIME_OVERRIDE_RECONCILIATION_REQUIRED"
  let row₁ := row.markPartial code 0
  have hne : row.status ≠ .applied := by
    rw [hs]
    decide
  have hrow₁ : row₁ = { row with
      status := .partiallyDone, errorCode := some code, completedAt := some 0 } := if_neg hne
  have hresume : ApplyState.resumeFrom ctx row true = .closing ctx (.markPartial code) false := by
    simp [ApplyState.resumeFrom, hs, hres, code]
  have h₂ : ApplyState.close ctx (.markPartial code) false (steady row.overrideId) s.db =
      (.done (.returned row₁ false), s.db.setRow row₁) := by
    unfold ApplyState.close Db.close Db.markPartial Db.updateRow
    simp only
    rw [show s.db.ledger.find ctx.overrideId = some row from hrow]
    rfl
  have hfound₁ : (s.db.setRow row₁).ledger.find row.overrideId = some row₁ := by
    have hid : row.overrideId = row₁.overrideId := by rw [hrow₁]
    rw [hid] at hrow ⊢
    exact Table.find_replace_self hrow
  have hat₁ : AtSource (s.db.setRow row₁) row₁ r := by
    rw [hrow₁]
    exact ⟨hat.thread, hat.status, hat.pointer, hat.version, hat.nextNode⟩
  have hok₁ : RowOk worker.runtime (s.db.setRow row₁).store row₁ := by
    rw [hrow₁]
    exact (hp.rows _ row hrow).rewrite ⟨rfl, rfl, rfl, rfl, rfl, rfl, rfl, rfl, rfl, rfl⟩ rfl rfl
      (fun h => by cases h) (fun h => by cases h)
  obtain ⟨st', db', r', hrec, hr', hstable⟩ := exec_reconcile_applied row.overrideId hfound₁
    (by rw [hrow₁]) hat₁ hok₁ hp.store (by rw [hrow₁]; exact hres)
  rw [hresume] at hfound
  refine ⟨3, 5, .done (.returned row₁ false), s.db.setRow row₁, s.locks, st', db', r', ?_, hrec, ?_,
    hstable⟩
  · show exec _ _ (List.replicate 2 _ ++ [steady row.overrideId]) = _
    refine exec_append_eq_some.mpr ⟨_, hfound, ?_⟩
    exact exec_cons_eq_some.mpr ⟨_, congrArg (some ∘ ApplyState.step.keep s.locks) h₂, rfl⟩
  · rw [hrow₁] at hr'
    exact hr'

theorem restores_partial (hp : Provenance worker s) (hrow : s.db.ledger.find row.overrideId = some row)
    (hfound : exec (solo worker.runtime c) (.entered (row.asInput role), s.db, s.locks)
      (List.replicate 2 (steady row.overrideId)) =
        some (ApplyState.resumeFrom (replayContext row role) row true, s.db, s.locks))
    (hat : AtSource s.db row r) (hs : row.status = .partiallyDone)
    (hres : row.resultCheckpointId ≠ none) : Restores worker s row role c := by
  have hresume : ApplyState.resumeFrom (replayContext row role) row true =
      .done (.returned row true) := by
    simp [ApplyState.resumeFrom, hs]
  obtain ⟨st', db', r', hrec, hr', hstable⟩ := exec_reconcile_applied row.overrideId hrow hs
    hat (hp.rows _ row hrow) hp.store hres
  rw [hresume] at hfound
  exact ⟨2, 5, _, s.db, s.locks, st', db', r', hfound, hrec, hr', hstable⟩

theorem canReturn_of_atSource (hp : Provenance worker s) (ho : s.Owned) (hrep : s.Replayable)
    (hrow : s.db.ledger.find row.overrideId = some row) (hat : AtSource s.db row r)
    (hs : row.status = .applying ∨ row.status = .partiallyDone) : CanReturn worker s row := by
  obtain ⟨role, hposed⟩ := hrep.posed _ row hrow
  obtain ⟨c, hc⟩ := hrep.idleCalls
  obtain ⟨i, hi⟩ := hrep.idleReconciles
  have hok := hp.rows _ row hrow
  have hfound : exec (solo worker.runtime c) (.entered (row.asInput role), s.db, s.locks)
      (List.replicate 2 (steady row.overrideId)) =
        some (ApplyState.resumeFrom (replayContext row role) row true, s.db, s.locks) :=
    exec_replay_found hposed (hrep.byKey hrow) hok.fingerprint hat.thread
  have hrestores : Restores worker s row role c := by
    rcases hs with hs | hs
    · by_cases hres : row.resultCheckpointId = none
      · exact restores_unattached hok hfound hat hs hres (ho.named _ row hrow)
      · exact restores_attached hp hrow hfound hat hs hres
    · exact restores_partial hp hrow hfound hat hs (ho.attached _ row hrow hs)
  obtain ⟨n, m, st, db, locks, st', db', r', hreplay, hreconcile, hr', hstable⟩ := hrestores
  exact ⟨role, c, i, n, m, _, r',
    exec_remedy (hc c (Nat.le_refl c)) (hi i (Nat.le_refl i)) hreplay hreconcile, hr', hstable⟩

end Remedies

/-- **A fence nobody is working on has an owner.**  In a tended run, a thread that is `OVERRIDING`
while no call works on it has a row under way that describes its boundary, and replaying that request
and reconciling that override makes it `STABLE`. -/
theorem fence_has_owner {s₀ s : System} {run : List Action} {t : String} {r : ThreadRecord} (h₀ : Initial s₀)
    (hok : Meets (step worker) Tended s₀ run) (hrun : exec (step worker) s₀ run = some s)
    (hr : s.db.threads t = some r) (hs : r.row.status = .overriding)
    (hidle : ∀ c, (s.calls c).thread ≠ some t) :
    ∃ row, s.db.ledger.find row.overrideId = some row ∧ row.threadId = t ∧
      (row.status = .applying ∨ row.status = .partiallyDone) ∧
      row.sourceCheckpointId = r.row.currentCheckpointId ∧
      row.expectedVersion = r.row.stateVersion ∧ CanReturn worker s row := by
  obtain ⟨hp, ho⟩ := exec_owned h₀ hok hrun
  obtain ⟨ov, hov⟩ := Option.ne_none_iff_exists'.mp (ho.raised t r hr hs)
  have hh : Holds s.db t ov := ⟨hov, r, hr, hs⟩
  have hmark : ∀ c ctx thread source, s.calls c = .marking ctx thread source →
      ctx.overrideId ≠ ov := by
    rintro c ctx thread source hst rfl
    obtain ⟨row, -, hrow, ht, -⟩ := ho.held t ctx.overrideId hh
    have hctx := hp.calls c
    rw [hst] at hctx
    obtain ⟨⟨row', hrow', hreq⟩, -⟩ := hctx
    rw [hrow] at hrow'
    cases hrow'
    refine hidle c ?_
    rw [hst, ← ht, hreq.threadId]
    rfl
  obtain ⟨row, r', hrow, rfl, hr', hs', hv, hn, hstatus, hc⟩ := ho.owner_marked hh hmark
  rw [hr] at hr'
  cases hr'
  have hfound : s.db.ledger.find row.overrideId = some row := by
    rw [Table.find_key hrow]
    exact hrow
  exact ⟨row, hfound, rfl, hstatus, hc, hv,
    canReturn_of_atSource hp ho (exec_replayable h₀ hok hrun) hfound ⟨hr, hs, hc, hv, hn⟩ hstatus⟩

/-! ### A crash after the mark, and one before it -/

/-- A thread that stands at the `environment` boundary, version 4. -/
def boundary : System :=
  { empty with
    db :=
      { threads := fun t =>
          if t = "thread" then
            some
              { row :=
                  { threadId := "thread", taskId := "task", status := .stable
                    currentCheckpointId := some "c4", stateVersion := 4
                    currentNode := some "environment", nextNode := some "capacity"
                    checkpointCount := 4, checkpointSizeBytes := some 100
                    lastEventSequence := none, workerConsumer := some "worker-1"
                    resumedCount := 0, terminalAt := none, rowVersion := 5 }
                events := [] }
          else none
        ledger := Table.empty
        store := fun key => environmentRecords.find? fun r => (r.threadId, r.checkpointId) = key
        fence := fun _ => none } }

theorem boundary_initial : Initial boundary := by
  have hparents : ∀ record ∈ environmentRecords, ∀ p ∈ record.parentCheckpointId,
      environmentRecords.find? (fun r => (r.threadId, r.checkpointId) = (record.threadId, p)) ≠
        none := by
    decide
  have hfiled : ∀ t c record, boundary.db.store (t, c) = some record →
      record.threadId = t ∧ record.checkpointId = c := by
    intro t c record h
    have hkey := List.find?_some h
    exact Prod.mk.inj (of_decide_eq_true hkey)
  have hrow : ∀ t r, boundary.db.threads t = some r → t = "thread" ∧ r.row.threadId = t ∧
      r.row.status = .stable := by
    intro t r h
    simp only [boundary] at h
    split at h
    · rename_i ht
      rw [← Option.some.inj h]
      exact ⟨ht, ht.symm, rfl⟩
    · cases h
  refine ⟨⟨hfiled, ?_⟩, fun t r h => (hrow t r h).2.1, ?_, rfl, fun _ => rfl, fun _ => rfl,
    fun _ => rfl, fun _ => rfl⟩
  · intro t c record p h hp
    have hfound : environmentRecords.find? (fun r => (r.threadId, r.checkpointId) = (t, c)) =
        some record := h
    have hstored := hparents record (List.mem_of_find?_eq_some hfound) p hp
    rw [(hfiled t c record h).1] at hstored
    exact hstored
  · intro t r h
    rw [(hrow t r h).2.2]
    decide

/-- A call of the example request that crashes after some steps. -/
def crashedRun (n : ℕ) : List Action :=
  (.beginApply 0 (breakdownInput "key-1" (some "capacity")) ::
    (List.replicate n smooth).map (.advance 0)) ++ [.crash 0]

theorem exec_crashedRun {x : ApplyState × Db × Locks}
    (hx : exec (solo exampleWorker.runtime 0)
      (.entered (breakdownInput "key-1" (some "capacity")), boundary.db, boundary.locks)
      (List.replicate n smooth) = some x) (hlive : x.1.live = true) :
    exec (step exampleWorker) boundary (crashedRun n) =
      some (boundary.withCall 0 (.crashed, x.2)) := by
  refine exec_append_eq_some.mpr ⟨boundary.withCall 0 x, ?_, ?_⟩
  · rw [exec_call rfl, hx]
    rfl
  · have hcrash : step exampleWorker (boundary.withCall 0 x) (.crash 0) =
        some (boundary.withCall 0 (.crashed, x.2)) := by
      simp only [step, withCall_calls, hlive, if_true]
      exact congrArg some (withCall_withCall boundary 0 x (.crashed, x.2))
    exact exec_cons_eq_some.mpr ⟨_, hcrash, rfl⟩

theorem crashed_nobody (x : Db × Locks) (c : ℕ) :
    ((boundary.withCall 0 (.crashed, x)).calls c).thread ≠ some "thread" := by
  show (update boundary.calls 0 ApplyState.crashed c).thread ≠ _
  by_cases hc : c = 0
  · rw [hc, update_self]
    simp [ApplyState.thread]
  · rw [update_of_ne hc]
    simp [boundary, empty, ApplyState.thread]

/-- A first request that names its next node is tended, up to a crash outside of the mark. -/
def firstRequest (s : System) : Action → Bool
  | .beginApply _ _ => true
  | .advance c _ =>
    match s.calls c with
    | .reserving _ command =>
      command.expectedNextNode.isSome && (s.db.byKey command.idempotencyKey).isNone
    | _ => true
  | .crash c =>
    match s.calls c with
    | .marking _ _ _ => false
    | _ => true
  | _ => false

theorem tended_of_firstRequest (s : System) (a : Action) (h : s.firstRequest a = true) : s.Tended a := by
  cases a with
  | beginApply c input => trivial
  | advance c o =>
    intro input command hst
    simp only [firstRequest, hst, Bool.and_eq_true, Option.isNone_iff_eq_none] at h
    refine ⟨Option.isSome_iff_ne_none.mp h.1, fun row hrow => ?_⟩
    rw [h.2] at hrow
    cases hrow
  | crash c =>
    intro ctx thread source hst
    simp [firstRequest, hst] at h
  | _ => cases h

/-- A call that crashes after its mark leaves an owner. -/
theorem fence_has_owner_after_mark : ∃ s row,
    exec (step exampleWorker) boundary (crashedRun 7) = some s ∧ row.threadId = "thread" ∧
      CanReturn exampleWorker s row := by
  have hx : ((exec (solo exampleWorker.runtime 0)
      (.entered (breakdownInput "key-1" (some "capacity")), boundary.db, boundary.locks)
      (List.replicate 7 smooth)).bind fun x => (x.2.1.threads "thread").map fun r =>
        decide (x.1.live = true ∧ r.row.status = .overriding)) = some true := by
    decide +kernel
  have hok : Meets (step exampleWorker) (fun s a => s.firstRequest a = true) boundary
      (crashedRun 7) := by
    decide +kernel
  obtain ⟨x, hx, hrun⟩ := Option.bind_eq_some_iff.mp hx
  obtain ⟨r, hr, hrun⟩ := Option.map_eq_some_iff.mp hrun
  obtain ⟨hlive, hs⟩ := of_decide_eq_true hrun
  have hexec := exec_crashedRun hx hlive
  obtain ⟨row, -, ht, -, -, -, hreturn⟩ := fence_has_owner boundary_initial
    (hok.mono tended_of_firstRequest) hexec hr hs (crashed_nobody x.2)
  exact ⟨_, row, hexec, ht, hreturn⟩

/-- **A call that crashes between its claim and its mark leaves none**: the thread is `OVERRIDING`
and the only row is still `PENDING`. -/
theorem fence_without_owner_before_mark :
    ¬ ∀ (run : List Action) (s : System) (t : String) (r : ThreadRecord),
      (∀ a ∈ run, a.overrides = true) → exec (step exampleWorker) boundary run = some s →
      s.db.threads t = some r → r.row.status = .overriding →
      (∀ c, (s.calls c).thread ≠ some t) →
      ∃ row, s.db.ledger.find row.overrideId = some row ∧ row.threadId = t ∧
        (row.status = .applying ∨ row.status = .partiallyDone) ∧
        row.sourceCheckpointId = r.row.currentCheckpointId ∧
        row.expectedVersion = r.row.stateVersion := by
  intro howner
  have hx : ((exec (solo exampleWorker.runtime 0)
      (.entered (breakdownInput "key-1" (some "capacity")), boundary.db, boundary.locks)
      (List.replicate 6 smooth)).bind fun x => (x.2.1.threads "thread").map fun r =>
        decide (x.1.live = true ∧ r.row.status = .overriding ∧
          ∀ row ∈ x.2.1.ledger.rows, row.status = .pending)) = some true := by
    decide +kernel
  obtain ⟨x, hx, hrun⟩ := Option.bind_eq_some_iff.mp hx
  obtain ⟨r, hr, hrun⟩ := Option.map_eq_some_iff.mp hrun
  obtain ⟨hlive, hs, hpending⟩ := of_decide_eq_true hrun
  obtain ⟨row, hrow, -, hstatus, -⟩ := howner (crashedRun 6) _ "thread" r (by decide)
    (exec_crashedRun hx hlive) hr hs (crashed_nobody x.2)
  rw [hpending row (Table.find_mem hrow)] at hstatus
  rcases hstatus with hs' | hs' <;> cases hs'

end System

end CountyFlow.Override
