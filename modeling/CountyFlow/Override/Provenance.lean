import CountyFlow.Override.Evolution

/-!
# Where the data of a process comes from

A call carries snapshots and records through many steps while others move.  This file says what each
of them still guarantees: the context of a call describes its ledger row, a boundary it has read was
allowed by the policy, a candidate it carries was validated against a stored source, and the source
of an override is the one checkpoint the thread had at the override's version.
-/

namespace CountyFlow.Override

open CountyFlow.Lib CountyFlow.Core CountyFlow.Runtime Function

/-- The store files every record under its own thread and id, and holds its parent. -/
structure StoreOk (store : CheckpointStore) : Prop where
  filed : ∀ t c record, store (t, c) = some record → record.threadId = t ∧ record.checkpointId = c
  parent : ∀ t c record p, store (t, c) = some record → record.parentCheckpointId = some p →
    store (t, p) ≠ none

/-- The thread has passed version `v`, or stands at `v` with canonical checkpoint `c`. -/
def Pinned (db : Db) (threadId : String) (v : ℕ) (c : String) : Prop :=
  ∃ r, db.threads threadId = some r ∧ v ≤ r.row.stateVersion ∧
    (r.row.stateVersion = v → r.row.currentCheckpointId = some c)

variable {db db' : Db}

variable {t c : String}

theorem Pinned.mono {v : ℕ} (h : Pinned db t v c) (he : db.Evolves db') : Pinned db' t v c := by
  obtain ⟨r, hr, hv, hc⟩ := h
  obtain ⟨r', hr', hadv⟩ := he.threads t r hr
  have hle := hadv.version
  refine ⟨r', hr', by omega, fun hv' => ?_⟩
  rw [hadv.pointer (by omega)]
  exact hc (by omega)

/-! ### The ledger rows -/

/-- The columns repeat what was hashed. -/
structure FingerprintOk (row : RuntimeOverride) : Prop where
  threadId : row.payloadFingerprint.threadId = row.threadId
  expectedVersion : row.payloadFingerprint.expectedVersion = row.expectedVersion
  expectedNextNode : row.payloadFingerprint.expectedNextNode = row.expectedNextNode
  entityId : row.payloadFingerprint.entityId = row.entityId
  oldValue : row.payloadFingerprint.oldValue = row.oldValue
  newValue : row.payloadFingerprint.newValue = row.newValue

structure SourceOk (store : CheckpointStore) (row : RuntimeOverride) (source : CheckpointRecord) :
    Prop where
  stored : store (row.threadId, source.checkpointId) = some source
  entity : source.state.get "vehicle_id" = .str row.entityId
  oldValue : source.state.get "vehicle_status" = .str row.oldValue
  nextNode : row.expectedNextNode = none ∨ row.expectedNextNode = some "capacity"

/-- What is always true of a ledger row. -/
structure RowOk (config : RuntimeConfig) (store : CheckpointStore) (row : RuntimeOverride) : Prop where
  fingerprint : FingerprintOk row
  pending : row.status = .pending → row.sourceCheckpointId = none ∧ row.resultCheckpointId = none
  applying : row.status = .applying → row.sourceCheckpointId ≠ none
  source : ∀ c, row.sourceCheckpointId = some c →
    ∃ source, source.checkpointId = c ∧ SourceOk store row source
  result : ∀ r, row.resultCheckpointId = some r →
    ∃ source result, row.sourceCheckpointId = some source.checkpointId ∧
      SourceOk store row source ∧ store (row.threadId, r) = some result ∧
      candidateValid config.maxCheckpointBytes row source result = true

variable {config : RuntimeConfig}

variable {a b : RuntimeOverride}

theorem FingerprintOk.same (h : FingerprintOk a)
    (hs : RuntimeOverride.SameRequest a b) : FingerprintOk b := by
  refine ⟨?_, ?_, ?_, ?_, ?_, ?_⟩ <;> rw [hs.payloadFingerprint]
  · rw [h.threadId, hs.threadId]
  · rw [h.expectedVersion, hs.expectedVersion]
  · rw [h.expectedNextNode, hs.expectedNextNode]
  · rw [h.entityId, hs.entityId]
  · rw [h.oldValue, hs.oldValue]
  · rw [h.newValue, hs.newValue]

variable {store : CheckpointStore}

theorem SourceOk.same {source : CheckpointRecord} (h : SourceOk store a source)
    (hs : RuntimeOverride.SameRequest a b) : SourceOk store b source := by
  refine ⟨?_, ?_, ?_, ?_⟩
  · rw [hs.threadId]
    exact h.stored
  · rw [hs.entityId]
    exact h.entity
  · rw [hs.oldValue]
    exact h.oldValue
  · rw [hs.expectedNextNode]
    exact h.nextNode

variable {row : RuntimeOverride}

theorem SourceOk.mono {source : CheckpointRecord} (h : SourceOk db.store row source)
    (he : db.Evolves db') : SourceOk db'.store row source :=
  ⟨he.store _ _ h.stored, h.entity, h.oldValue, h.nextNode⟩

theorem candidateValid_same (hs : RuntimeOverride.SameRequest a b) (n : ℕ)
    (source result : CheckpointRecord) :
    candidateValid n b source result = candidateValid n a source result := by
  simp only [candidateValid, hs.entityId, hs.oldValue, hs.newValue]

theorem RowOk.rewrite (h : RowOk config store a) (hs : RuntimeOverride.SameRequest a b)
    (hsource : b.sourceCheckpointId = a.sourceCheckpointId)
    (hresult : b.resultCheckpointId = a.resultCheckpointId)
    (hpending : b.status = .pending → a.status = .pending)
    (happlying : b.status = .applying → a.status = .applying) : RowOk config store b where
  fingerprint := h.fingerprint.same hs
  pending hb := by
    rw [hsource, hresult]
    exact h.pending (hpending hb)
  applying hb := by
    rw [hsource]
    exact h.applying (happlying hb)
  source c hc := by
    obtain ⟨source, hid, hok⟩ := h.source c (hsource ▸ hc)
    exact ⟨source, hid, hok.same hs⟩
  result r hr := by
    obtain ⟨source, result, hsrc, hok, hres, hvalid⟩ := h.result r (hresult ▸ hr)
    refine ⟨source, result, hsource ▸ hsrc, hok.same hs, ?_, ?_⟩
    · rw [hs.threadId]
      exact hres
    · rw [candidateValid_same hs]
      exact hvalid

theorem RowOk.mono (h : RowOk config db.store row) (he : db.Evolves db') : RowOk config db'.store row where
  fingerprint := h.fingerprint
  pending := h.pending
  applying := h.applying
  source c hc := by
    obtain ⟨source, hid, hok⟩ := h.source c hc
    exact ⟨source, hid, hok.mono he⟩
  result r hr := by
    obtain ⟨source, result, hsrc, hok, hres, hvalid⟩ := h.result r hr
    exact ⟨source, result, hsrc, hok.mono he, he.store _ _ hres, hvalid⟩

/-! ### The calls -/

/-- The context of a call describes the row it works on. -/
structure Requested (ctx : ApplyContext) (row : RuntimeOverride) : Prop where
  threadId : row.threadId = ctx.threadId
  expectedVersion : row.expectedVersion = ctx.request.expectedVersion
  expectedNextNode : row.expectedNextNode = ctx.command.expectedNextNode
  entityId : row.entityId = ctx.command.entityId
  oldValue : row.oldValue = ctx.command.oldValue
  newValue : row.newValue = ctx.request.newValue
  idempotencyKey : row.idempotencyKey = ctx.command.idempotencyKey

def CtxOk (db : Db) (ctx : ApplyContext) : Prop :=
  ∃ row, db.ledger.find ctx.overrideId = some row ∧ Requested ctx row

variable {ctx : ApplyContext}

theorem Requested.same (h : Requested ctx a) (hs : RuntimeOverride.SameRequest a b) : Requested ctx b :=
  ⟨hs.threadId.trans h.threadId, hs.expectedVersion.trans h.expectedVersion,
    hs.expectedNextNode.trans h.expectedNextNode, hs.entityId.trans h.entityId,
    hs.oldValue.trans h.oldValue, hs.newValue.trans h.newValue,
    hs.idempotencyKey.trans h.idempotencyKey⟩

theorem CtxOk.mono (h : CtxOk db ctx) (he : db.Evolves db') : CtxOk db' ctx := by
  obtain ⟨row, hrow, hreq⟩ := h
  obtain ⟨row', hrow', hcont⟩ := he.rows _ row hrow
  exact ⟨row', hrow', hreq.same hcont.request⟩

/-- A boundary the call has read and the policy has allowed. -/
structure BoundaryOk (db : Db) (ctx : ApplyContext) (thread : RuntimeThread)
    (source : CheckpointRecord) : Prop where
  version : thread.stateVersion = ctx.request.expectedVersion
  pointer : thread.currentCheckpointId = some source.checkpointId
  allowed : Allowed ctx.command thread source.state
  stored : db.store (ctx.threadId, source.checkpointId) = some source

variable {thread : RuntimeThread}

theorem BoundaryOk.mono {source : CheckpointRecord} (h : BoundaryOk db ctx thread source)
    (he : db.Evolves db') : BoundaryOk db' ctx thread source :=
  ⟨h.version, h.pointer, h.allowed, he.store _ _ h.stored⟩

def MarkedFrom (db : Db) (ctx : ApplyContext) (c : String) : Prop :=
  ∃ row, db.ledger.find ctx.overrideId = some row ∧ row.status ≠ .pending ∧
    row.sourceCheckpointId = some c

theorem MarkedFrom.mono (h : MarkedFrom db ctx c) (he : db.Evolves db') : MarkedFrom db' ctx c := by
  obtain ⟨row, hrow, hs, hc⟩ := h
  obtain ⟨row', hrow', hcont⟩ := he.rows _ row hrow
  obtain ⟨hs', hc'⟩ := hcont.source hs
  exact ⟨row', hrow', hs', hc'.trans hc⟩

/-- A candidate the updater has validated against the marked source. -/
structure CandidateOk (config : RuntimeConfig) (db : Db) (ctx : ApplyContext)
    (record : CheckpointRecord) : Prop where
  stored : db.store (ctx.threadId, record.checkpointId) = some record
  validated : ∃ thread source nextNodes, BoundaryOk db ctx thread source ∧
    Validated config.maxCheckpointBytes source record nextNodes ctx.request.newValue
      (thread.nextNode.getD "") ∧ MarkedFrom db ctx source.checkpointId

variable {record : CheckpointRecord}

theorem CandidateOk.mono (h : CandidateOk config db ctx record) (he : db.Evolves db') :
    CandidateOk config db' ctx record := by
  obtain ⟨hst, thread, source, next, hb, hv, hm⟩ := h
  exact ⟨he.store _ _ hst, thread, source, next, hb.mono he, hv, hm.mono he⟩

/-- The row records this result. -/
def AttachedTo (db : Db) (ctx : ApplyContext) (r : String) : Prop :=
  ∃ row, db.ledger.find ctx.overrideId = some row ∧ row.resultCheckpointId = some r

theorem AttachedTo.mono {r : String} (h : AttachedTo db ctx r)
    (he : db.Evolves db') : AttachedTo db' ctx r := by
  obtain ⟨row, hrow, hr⟩ := h
  obtain ⟨row', hrow', hcont⟩ := he.rows _ row hrow
  exact ⟨row', hrow', hcont.result r hr⟩

variable {st : ApplyState}

namespace ApplyState

def Ok (config : RuntimeConfig) (db : Db) : ApplyState → Prop
  | .idle | .entered _ | .done _ | .crashed => True
  | .reserving input command =>
    ∃ ov role now, command = input.command ov role now ∧ command.postInit = .ok ()
  | .recovering ctx _ | .releasing ctx _ | .requesting ctx | .loading ctx | .publishing ctx
  | .closing ctx _ _ | .leaving ctx _ _ | .inspecting ctx _ | .freeing ctx _ _ => CtxOk db ctx
  | .reading ctx thread => CtxOk db ctx ∧ thread.stateVersion = ctx.request.expectedVersion ∧
      thread.currentCheckpointId ≠ none
  | .claiming ctx thread source | .marking ctx thread source =>
    CtxOk db ctx ∧ BoundaryOk db ctx thread source
  | .updating ctx thread source | .undoing ctx thread source =>
    CtxOk db ctx ∧ BoundaryOk db ctx thread source ∧ MarkedFrom db ctx source.checkpointId
  | .attaching ctx record => CtxOk db ctx ∧ CandidateOk config db ctx record
  | .promoting ctx record =>
    CtxOk db ctx ∧ CandidateOk config db ctx record ∧ AttachedTo db ctx record.checkpointId

theorem Ok.mono (h : st.Ok config db) (he : db.Evolves db') : st.Ok config db' := by
  cases st with
  | idle => trivial
  | entered input => trivial
  | done result => trivial
  | crashed => trivial
  | reserving input command => exact h
  | recovering ctx stored => exact CtxOk.mono h he
  | releasing ctx stored => exact CtxOk.mono h he
  | requesting ctx => exact CtxOk.mono h he
  | loading ctx => exact CtxOk.mono h he
  | publishing ctx => exact CtxOk.mono h he
  | closing ctx write locked => exact CtxOk.mono h he
  | leaving ctx free result => exact CtxOk.mono h he
  | inspecting ctx result => exact CtxOk.mono h he
  | freeing ctx current result => exact CtxOk.mono h he
  | reading ctx thread => exact ⟨CtxOk.mono h.1 he, h.2⟩
  | claiming ctx thread source => exact ⟨CtxOk.mono h.1 he, h.2.mono he⟩
  | marking ctx thread source => exact ⟨CtxOk.mono h.1 he, h.2.mono he⟩
  | updating ctx thread source =>
    exact ⟨CtxOk.mono h.1 he, h.2.1.mono he, MarkedFrom.mono h.2.2 he⟩
  | undoing ctx thread source =>
    exact ⟨CtxOk.mono h.1 he, h.2.1.mono he, MarkedFrom.mono h.2.2 he⟩
  | attaching ctx record => exact ⟨CtxOk.mono h.1 he, h.2.mono he⟩
  | promoting ctx record => exact ⟨CtxOk.mono h.1 he, h.2.1.mono he, AttachedTo.mono h.2.2 he⟩

/-- The override of a call that has claimed its boundary, with the source it claimed at. -/
def source : ApplyState → Option (String × String)
  | .marking ctx _ source | .updating ctx _ source | .undoing ctx _ source =>
    some (ctx.overrideId, source.checkpointId)
  | .attaching ctx record | .promoting ctx record =>
    record.parentCheckpointId.map fun p => (ctx.overrideId, p)
  | _ => none

end ApplyState

/-! ### How the rows stay good -/

def RowsOk (config : RuntimeConfig) (db : Db) : Prop :=
  ∀ ov row, db.ledger.find ov = some row → RowOk config db.store row

theorem RowsOk.mono (h : RowsOk config db) (he : db.Evolves db') (hl : db'.ledger = db.ledger) :
    RowsOk config db' := by
  intro ov row hrow
  rw [hl] at hrow
  exact (h ov row hrow).mono he

variable {row' : RuntimeOverride}

theorem RowsOk.setRow (h : RowsOk config db) (hrow : db.ledger.find row'.overrideId = some row)
    (hok : RowOk config db.store row') : RowsOk config (db.setRow row') := by
  intro ov r hr
  have hr' : (db.ledger.replace row').find ov = some r := hr
  rw [Table.find_replace] at hr'
  split at hr'
  · rename_i hov
    subst hov
    rw [hrow] at hr'
    cases hr'
    exact hok
  · exact h ov r hr'

variable {ov : String} {method : RuntimeOverride → Except LedgerError RuntimeOverride}

theorem RowsOk.updateRow (h : RowsOk config db)
    (hm : ∀ row row', db.ledger.find ov = some row → RowOk config db.store row →
      method row = .ok row' → row'.overrideId = row.overrideId ∧ RowOk config db.store row')
    (hu : db.updateRow ov method = .ok (row', db')) : RowsOk config db' := by
  obtain ⟨row, hrow, hmeth, rfl⟩ := Db.updateRow_ok hu
  obtain ⟨hid, hok⟩ := hm row row' hrow (h ov row hrow) hmeth
  have hfound : db.ledger.find row'.overrideId = some row := by
    rw [hid, Table.find_key hrow]
    exact hrow
  exact h.setRow hfound hok

variable {w : Closing} {now : ℕ}

theorem RowsOk.close (h : RowsOk config db)
    (hc : db.close ov w now = .ok (row', db')) : RowsOk config db' := by
  cases w with
  | finish st d code =>
    refine h.updateRow (fun row row' _ hok hm => ?_) hc
    rw [← Except.ok.inj hm]
    unfold RuntimeOverride.finish
    split
    · exact ⟨rfl, hok⟩
    · refine ⟨rfl, hok.rewrite ⟨rfl, rfl, rfl, rfl, rfl, rfl, rfl, rfl, rfl, rfl⟩ rfl rfl ?_ ?_⟩
      · intro hs
        cases st <;> cases hs
      · intro hs
        cases st <;> cases hs
  | markPartial code =>
    refine h.updateRow (fun row row' _ hok hm => ?_) hc
    rw [← Except.ok.inj hm]
    unfold RuntimeOverride.markPartial
    split
    · exact ⟨rfl, hok⟩
    · exact ⟨rfl, hok.rewrite ⟨rfl, rfl, rfl, rfl, rfl, rfl, rfl, rfl, rfl, rfl⟩ rfl rfl
        (fun hs => by cases hs) (fun hs => by cases hs)⟩

theorem RowsOk.promoteApplied {size : ℕ} {commits : Bool} (h : RowsOk config db)
    (hp : db.promoteApplied ov c size now commits = .ok (row', db')) : RowsOk config db' := by
  obtain ⟨row, hrow, ⟨-, -, rfl⟩ | ⟨t, -, -, -, rfl, rfl⟩⟩ := Db.promoteApplied_ok hp
  · exact h
  · obtain rfl := Table.find_key hrow
    have hok : RowOk config db.store (row.applyPromotion (t.row.stateVersion + 1) now) :=
      (h _ row hrow).rewrite ⟨rfl, rfl, rfl, rfl, rfl, rfl, rfl, rfl, rfl, rfl⟩ rfl rfl
        (fun hs => by cases hs) (fun hs => by cases hs)
    have hset : RowsOk config (db.setRow (row.applyPromotion (t.row.stateVersion + 1) now)) :=
      h.setRow hrow hok
    intro ov' r hr
    rw [Db.ledger_lower] at hr
    rw [Db.store_lower]
    exact hset ov' r hr

theorem reserve_ok (input : ApplyInput) (ov role : String) (now expires : ℕ) (taskId : String)
    (store : CheckpointStore) :
    RowOk config store (RuntimeOverride.reserve (input.command ov role now) taskId expires) where
  fingerprint := ⟨rfl, rfl, rfl, rfl, rfl, rfl⟩
  pending _ := ⟨rfl, rfl⟩
  applying h := by cases h
  source c h := by cases h
  result c h := by cases h

variable {input : ApplyInput}

theorem requested_of_fingerprint {role : String} (hok : FingerprintOk row)
    (hfp : row.payloadFingerprint = (input.command ov role now).fingerprint)
    (hkey : row.idempotencyKey = (input.command ov role now).idempotencyKey) :
    Requested ⟨input.threadId, input.request, input.command ov role now, row.overrideId⟩ row where
  threadId := by
    rw [← hok.threadId, hfp]
    rfl
  expectedVersion := by
    rw [← hok.expectedVersion, hfp]
    rfl
  expectedNextNode := by
    rw [← hok.expectedNextNode, hfp]
    rfl
  entityId := by
    rw [← hok.entityId, hfp]
    rfl
  oldValue := by
    rw [← hok.oldValue, hfp]
    rfl
  newValue := by
    rw [← hok.newValue, hfp]
    rfl
  idempotencyKey := hkey

theorem beginOrReplay_provenance {role : String} {expires : ℕ} {replayed : Bool} (h : RowsOk config db)
    (hb : db.beginOrReplay (input.command ov role now) expires = .ok (row, replayed, db')) :
    RowsOk config db' ∧ db'.ledger.find row.overrideId = some row ∧
      Requested ⟨input.threadId, input.request, input.command ov role now, row.overrideId⟩ row := by
  obtain ⟨-, rfl, hbyKey, -, hfp⟩ | ⟨-, -, t, ledger, ht, rfl, hadd, rfl⟩ :=
    Db.beginOrReplay_ok hb
  · obtain ⟨hfind, hkey⟩ := Db.byKey_eq_some hbyKey
    exact ⟨h, hfind, requested_of_fingerprint (h _ row hfind).fingerprint hfp hkey⟩
  · refine ⟨?_, ?_, ⟨rfl, rfl, rfl, rfl, rfl, rfl, rfl⟩⟩
    · intro ov' r hr
      have hr' : ledger.find ov' = some r := hr
      rw [Table.find_add hadd] at hr'
      split at hr'
      · cases hr'
        exact reserve_ok input ov role now expires _ _
      · exact h ov' r hr'
    · show ledger.find _ = _
      rw [Table.find_add hadd, if_pos rfl]

theorem BoundaryOk.sourceOk {source : CheckpointRecord} (h : BoundaryOk db ctx thread source)
    (hreq : Requested ctx row) : SourceOk db.store row source where
  stored := by
    rw [hreq.threadId]
    exact h.stored
  entity := by
    rw [hreq.entityId]
    exact h.allowed.entity
  oldValue := by
    rw [hreq.oldValue]
    exact h.allowed.oldValue
  nextNode := by
    rw [hreq.expectedNextNode]
    rcases h.allowed.nextNode with hn | hn
    · exact .inl hn
    · refine .inr ?_
      rw [hn, (Prod.mk.inj h.allowed.boundary).2]

theorem markApplying_rows {source : CheckpointRecord} (h : RowsOk config db) (hctx : CtxOk db ctx)
    (hb : BoundaryOk db ctx thread source)
    (hm : db.markApplying ctx.overrideId thread.stateVersion source.checkpointId now = .ok (row', db')) :
    RowsOk config db' := by
  refine h.updateRow (fun row row' hrow hok hmeth => ?_) hm
  obtain ⟨row₁, hrow₁, hreq⟩ := hctx
  rw [hrow] at hrow₁
  cases hrow₁
  obtain ⟨-, rfl⟩ | ⟨hs, rfl⟩ := RuntimeOverride.markApplying_ok hmeth
  · exact ⟨rfl, hok⟩
  · refine ⟨rfl, ⟨hok.fingerprint.same ⟨rfl, rfl, rfl, rfl, rfl, rfl, rfl, rfl, rfl, rfl⟩, ?_, ?_, ?_,
      ?_⟩⟩
    · intro hp
      cases hp
    · intro _
      exact Option.some_ne_none _
    · intro c hc
      refine ⟨source, Option.some.inj hc, ?_⟩
      exact (hb.sourceOk hreq).same ⟨rfl, rfl, rfl, rfl, rfl, rfl, rfl, rfl, rfl, rfl⟩
    · intro r hr
      have hnone := (hok.pending hs).2
      have hr' : row.resultCheckpointId = some r := hr
      rw [hnone] at hr'
      cases hr'

theorem attachResultCheckpoint_rows (h : RowsOk config db) (hctx : CtxOk db ctx)
    (hc : CandidateOk config db ctx record)
    (ha : db.attachResultCheckpoint ctx.overrideId record.checkpointId = .ok (row', db')) :
    RowsOk config db' := by
  refine h.updateRow (fun row row' hrow hok hmeth => ?_) ha
  obtain ⟨row₁, hrow₁, hreq⟩ := hctx
  rw [hrow] at hrow₁
  cases hrow₁
  obtain ⟨hs, -, rfl⟩ := RuntimeOverride.attachResultCheckpoint_ok hmeth
  refine ⟨rfl, ⟨hok.fingerprint.same ⟨rfl, rfl, rfl, rfl, rfl, rfl, rfl, rfl, rfl, rfl⟩, ?_, ?_, ?_,
    ?_⟩⟩
  · intro hp
    have hp' : row.status = .pending := hp
    rw [hs] at hp'
    cases hp'
  · exact hok.applying
  · intro c hsrc
    obtain ⟨source, hid, hsok⟩ := hok.source c hsrc
    exact ⟨source, hid, hsok.same ⟨rfl, rfl, rfl, rfl, rfl, rfl, rfl, rfl, rfl, rfl⟩⟩
  · intro r hr
    cases hr
    obtain ⟨hst, thread, source, next, hb, hv, row₂, hrow₂, -, hsrc⟩ := hc
    rw [hrow] at hrow₂
    cases hrow₂
    have hsok := hb.sourceOk hreq
    refine ⟨source, record, hsrc, hsok.same ⟨rfl, rfl, rfl, rfl, rfl, rfl, rfl, rfl, rfl, rfl⟩, ?_,
      ?_⟩
    · show db.store (row.threadId, record.checkpointId) = some record
      rw [hreq.threadId]
      exact hst
    · have hv' : Validated config.maxCheckpointBytes source record next row.newValue
          (thread.nextNode.getD "") := by
        rw [hreq.newValue]
        exact hv
      exact candidateValid_of_validated hv' hsok.entity hsok.oldValue

/-! ### One step of a call -/

variable {o : Outcome} {locks locks' : Locks} {st' : ApplyState}

namespace ApplyState

/-- What holds of the rows and of a call holds behind its step. -/
theorem step_ok {c : ℕ} (hstore : StoreOk db.store) (hrows : RowsOk config db) (hok : st.Ok config db)
    (hagree : ∀ ov c row c', st.source = some (ov, c) → db.ledger.find ov = some row →
      row.sourceCheckpointId = some c' → c' = c)
    (h : step config c o db locks st = some (st', db', locks')) : RowsOk config db' ∧ st'.Ok config db' := by
  have he := step_evolves h
  cases step_moves h with
  | entered hpost => exact ⟨hrows, o.uuid, _, o.now, rfl, hpost⟩
  | begun hb | repairing hb | recovering hb =>
    obtain ⟨ov, role, now, rfl, -⟩ := hok
    obtain ⟨hrows', hfind, hreq⟩ := beginOrReplay_provenance hrows hb
    exact ⟨hrows', _, hfind, hreq⟩
  | answered hb =>
    obtain ⟨ov, role, now, rfl, -⟩ := hok
    exact ⟨(beginOrReplay_provenance hrows hb).1, trivial⟩
  | unfenced | fenced | unreleased | busy | locked | unfit | inspecting | overriding => exact ⟨hrows, hok⟩
  | unpublished => exact ⟨hrows, hok⟩
  | loaded ht hs hv hcur => exact ⟨hrows, hok, hv, hcur⟩
  | declined | unclaimed | unmarked | failed | stuck | unattached | conflicting
      | unpromoted => exact ⟨hrows, hok.1⟩
  | unavailable => exact ⟨hrows, hok⟩
  | released hrel =>
    exact ⟨hrows.mono he (Db.ledger_releaseOverrideBoundary hrel), CtxOk.mono hok he⟩
  | undone hrel =>
    exact ⟨hrows.mono he (Db.ledger_releaseOverrideBoundary hrel), CtxOk.mono hok.1 he⟩
  | freed hrel => exact ⟨hrows.mono he (Db.ledger_releaseOverrideBoundary hrel), trivial⟩
  | allowed hs hallowed =>
    obtain ⟨hctx, hv, hcur⟩ := hok
    obtain ⟨cur, hcur'⟩ := Option.ne_none_iff_exists'.mp hcur
    rw [hcur', Option.getD_some] at hs
    obtain ⟨-, hid⟩ := hstore.filed _ _ _ hs
    exact ⟨hrows, hctx, hv, by rw [hcur', hid], hallowed, by rw [hid]; exact hs⟩
  | claimed hclaim =>
    exact ⟨hrows.mono he (Db.ledger_claimOverrideBoundary hclaim), hok.1.mono he, hok.2.mono he⟩
  | @marked ctx thread source row db₁ hm =>
    refine ⟨markApplying_rows hrows hok.1 hok.2 hm, hok.1.mono he, hok.2.mono he, ?_⟩
    have hfound := Db.markApplying_found hm
    obtain ⟨row₀, hrow₀, hmeth, rfl⟩ := Db.updateRow_ok hm
    obtain ⟨hs, rfl⟩ | ⟨hs, rfl⟩ := RuntimeOverride.markApplying_ok hmeth
    · -- another call of the same override has marked the row: with the same source
      obtain ⟨c', hc'⟩ := Option.ne_none_iff_exists'.mp ((hrows _ row hrow₀).applying hs)
      refine ⟨row, hfound, by rw [hs]; simp, ?_⟩
      rw [hc', hagree _ _ row c' rfl hrow₀ hc']
    · exact ⟨_, hfound, by simp, rfl⟩
  | invalid hs =>
    obtain ⟨hctx, hb, hmarked⟩ := hok
    obtain ⟨-, -, rfl⟩ := Db.saveCheckpoint_eq_some.mp hs
    exact ⟨hrows.mono he rfl, hctx.mono he, hb.mono he, hmarked.mono he⟩
  | @updated ctx thread source record next db₁ hs hv =>
    obtain ⟨hctx, hb, hmarked⟩ := hok
    have ht : record.threadId = ctx.threadId := by
      rw [hv.thread]
      exact (hstore.filed _ _ _ hb.stored).1
    obtain ⟨-, -, rfl⟩ := Db.saveCheckpoint_eq_some.mp hs
    refine ⟨hrows.mono he rfl, hctx.mono he, ?_, thread, source, next, hb.mono he, hv, hmarked.mono he⟩
    rw [← ht]
    exact update_self _ _ _
  | @attached ctx record row db₁ ha =>
    refine ⟨attachResultCheckpoint_rows hrows hok.1 hok.2 ha, hok.1.mono he, hok.2.mono he,
      row, Db.attachResultCheckpoint_found ha, ?_⟩
    obtain ⟨row₀, -, hmeth, -⟩ := Db.updateRow_ok ha
    obtain ⟨-, -, rfl⟩ := RuntimeOverride.attachResultCheckpoint_ok hmeth
    rfl
  | promoted hp => exact ⟨hrows.promoteApplied hp, hok.1.mono he⟩
  | published hm =>
    refine ⟨hrows.updateRow (fun row row' _ hrok hmeth => ?_) hm, CtxOk.mono hok he⟩
    rw [← Except.ok.inj hmeth]
    exact ⟨rfl, hrok.rewrite ⟨rfl, rfl, rfl, rfl, rfl, rfl, rfl, rfl, rfl, rfl⟩ rfl rfl
      (fun hs => hs) (fun hs => hs)⟩
  | closed hdb =>
    refine ⟨?_, CtxOk.mono hok he⟩
    obtain rfl | ⟨row, hclose⟩ := hdb
    · exact hrows
    · exact hrows.close hclose
  | ended hdb =>
    refine ⟨?_, trivial⟩
    obtain rfl | ⟨row, hclose⟩ := hdb
    · exact hrows
    · exact hrows.close hclose
  | _ => exact ⟨hrows, trivial⟩

end ApplyState

/-! ### Who names a source -/

/-- Every row of `db'` has the source and the result it had in `db`. -/
def SameSources (db db' : Db) : Prop :=
  ∀ ov row', db'.ledger.find ov = some row' → ∃ row, db.ledger.find ov = some row ∧
    row'.sourceCheckpointId = row.sourceCheckpointId ∧
    row'.resultCheckpointId = row.resultCheckpointId

theorem SameSources.of_ledger (h : db'.ledger = db.ledger) : SameSources db db' := by
  intro ov row' hrow
  rw [h] at hrow
  exact ⟨row', hrow, rfl, rfl⟩

theorem SameSources.updateRow
    (hm : ∀ row row', method row = .ok row' → row'.overrideId = row.overrideId ∧
      row'.sourceCheckpointId = row.sourceCheckpointId ∧
      row'.resultCheckpointId = row.resultCheckpointId) (hu : db.updateRow ov method = .ok (row', db')) :
    SameSources db db' := by
  obtain ⟨row, hrow, hmeth, rfl⟩ := Db.updateRow_ok hu
  obtain ⟨hid, hsrc, hres⟩ := hm row row' hmeth
  intro ov' r hr
  have hr' : (db.ledger.replace row').find ov' = some r := hr
  rw [Table.find_replace] at hr'
  split at hr'
  · rename_i hov
    rw [hid, Table.find_key hrow] at hov
    subst hov
    rw [hrow] at hr'
    cases hr'
    exact ⟨row, hrow, hsrc, hres⟩
  · exact ⟨r, hr', rfl, rfl⟩

theorem close_sameSources (h : db.close ov w now = .ok (row', db')) : SameSources db db' := by
  cases w with
  | finish st d code =>
    refine SameSources.updateRow (fun row row' hm => ?_) h
    rw [← Except.ok.inj hm]
    unfold RuntimeOverride.finish
    split <;> exact ⟨rfl, rfl, rfl⟩
  | markPartial code =>
    refine SameSources.updateRow (fun row row' hm => ?_) h
    rw [← Except.ok.inj hm]
    unfold RuntimeOverride.markPartial
    split <;> exact ⟨rfl, rfl, rfl⟩

theorem promoteApplied_sameSources {size : ℕ} {commits : Bool}
    (h : db.promoteApplied ov c size now commits = .ok (row', db')) : SameSources db db' := by
  obtain ⟨row, hrow, ⟨-, -, rfl⟩ | ⟨t, -, -, -, rfl, rfl⟩⟩ := Db.promoteApplied_ok h
  · exact SameSources.of_ledger rfl
  · intro ov' r hr
    rw [Db.ledger_lower] at hr
    have hr' : (db.ledger.replace (row.applyPromotion (t.row.stateVersion + 1) now)).find ov'
        = some r := hr
    rw [Table.find_replace] at hr'
    split at hr'
    · rename_i hov
      have hid : row.overrideId = ov := Table.find_key hrow
      have hov' : ov' = ov := hov.trans hid
      subst hov'
      rw [hrow] at hr'
      cases hr'
      exact ⟨row, hrow, rfl, rfl⟩
    · exact ⟨r, hr', rfl, rfl⟩

namespace ApplyState

theorem step_source {c : ℕ} {src : String} (h : step config c o db locks st = some (st', db', locks'))
    (hsrc : st'.source = some (ov, src)) :
    st.source = some (ov, src) ∨ ∃ ctx thread source row, st = .claiming ctx thread source ∧
      ov = ctx.overrideId ∧ src = source.checkpointId ∧
      db.claimOverrideBoundary ctx.threadId source.checkpointId thread.stateVersion
        (thread.nextNode.getD "") ctx.overrideId = .ok (row, db') := by
  cases step_moves h with
  | @claimed ctx thread source row db₁ hclaim =>
    cases hsrc
    exact .inr ⟨ctx, thread, source, row, rfl, rfl, rfl, hclaim⟩
  | marked | unavailable | invalid | attached => exact .inl hsrc
  | @updated ctx thread source record next db₁ hs hv =>
    refine .inl ?_
    rw [← hsrc]
    show _ = Option.map _ record.parentCheckpointId
    rw [hv.parent]
    rfl
  | _ => cases hsrc

/-- The source of a row is an old one, or the one its call has claimed. -/
theorem step_rowSource {c : ℕ} (h : step config c o db locks st = some (st', db', locks')) {src : String}
    (hrow : db'.ledger.find ov = some row') (hsrc : row'.sourceCheckpointId = some src) :
    (∃ row, db.ledger.find ov = some row ∧ row.sourceCheckpointId = some src) ∨
      st.source = some (ov, src) := by
  have hsame : SameSources db db' → (∃ row, db.ledger.find ov = some row ∧
      row.sourceCheckpointId = some src) ∨ st.source = some (ov, src) := by
    intro hss
    obtain ⟨row, hfind, hs, -⟩ := hss ov row' hrow
    exact .inl ⟨row, hfind, hs ▸ hsrc⟩
  cases step_moves h with
  | begun hb | repairing hb | recovering hb | answered hb =>
    obtain ⟨-, rfl, -⟩ | ⟨-, -, t, ledger, -, rfl, hadd, rfl⟩ := Db.beginOrReplay_ok hb
    · exact .inl ⟨row', hrow, hsrc⟩
    · have hrow₁ : ledger.find ov = some row' := hrow
      rw [Table.find_add hadd] at hrow₁
      split at hrow₁
      · cases hrow₁
        cases hsrc
      · exact .inl ⟨row', hrow₁, hsrc⟩
  | released hrel | undone hrel | freed hrel =>
    exact hsame (SameSources.of_ledger (Db.ledger_releaseOverrideBoundary hrel))
  | claimed hclaim => exact hsame (SameSources.of_ledger (Db.ledger_claimOverrideBoundary hclaim))
  | @marked ctx thread source row db₁ hm =>
    by_cases hov : ov = ctx.overrideId
    · subst hov
      have hfound := Db.markApplying_found hm
      rw [hfound] at hrow
      obtain rfl := Option.some.inj hrow
      obtain ⟨row₀, hrow₀, hmeth, -⟩ := Db.updateRow_ok hm
      obtain ⟨-, rfl⟩ | ⟨-, rfl⟩ := RuntimeOverride.markApplying_ok hmeth
      · exact .inl ⟨row, hrow₀, hsrc⟩
      · cases hsrc
        exact .inr rfl
    · obtain ⟨row₀, hrow₀, hmeth, rfl⟩ := Db.updateRow_ok hm
      have hid : row.overrideId = ctx.overrideId := by
        rw [(RuntimeOverride.markApplying_continues hmeth).1.request.overrideId,
          Table.find_key hrow₀]
      have hrow₁ : (db.ledger.replace row).find ov = some row' := hrow
      rw [Table.find_replace_ne _ _ (hid ▸ hov)] at hrow₁
      exact .inl ⟨row', hrow₁, hsrc⟩
  | invalid hs | updated hs =>
    obtain ⟨-, -, rfl⟩ := Db.saveCheckpoint_eq_some.mp hs
    exact .inl ⟨row', hrow, hsrc⟩
  | @attached ctx record row db₁ ha =>
    obtain ⟨row₀, hrow₀, hmeth, rfl⟩ := Db.updateRow_ok ha
    have hkey : row₀.overrideId = ctx.overrideId := Table.find_key hrow₀
    obtain ⟨-, -, rfl⟩ := RuntimeOverride.attachResultCheckpoint_ok hmeth
    have hrow₁ : (db.ledger.replace _).find ov = some row' := hrow
    rw [Table.find_replace] at hrow₁
    split at hrow₁
    · rename_i hov
      have hov' : ov = ctx.overrideId := hov.trans hkey
      subst hov'
      rw [hrow₀] at hrow₁
      cases hrow₁
      exact .inl ⟨row₀, hrow₀, hsrc⟩
    · exact .inl ⟨row', hrow₁, hsrc⟩
  | promoted hp => exact hsame (promoteApplied_sameSources hp)
  | published hm =>
    refine hsame (SameSources.updateRow (fun row row' hmeth => ?_) hm)
    rw [← Except.ok.inj hmeth]
    exact ⟨rfl, rfl, rfl⟩
  | closed hdb | ended hdb =>
    obtain rfl | ⟨row, hclose⟩ := hdb
    · exact .inl ⟨row', hrow, hsrc⟩
    · exact hsame (close_sameSources hclose)
  | _ => exact .inl ⟨row', hrow, hsrc⟩

end ApplyState

/-! ### The workers -/

/-- A command promotes a stored successor of the checkpoint it expects. -/
structure Certified (store : CheckpointStore) (command : PromoteCheckpoint) : Prop where
  stored : store (command.threadId, command.checkpointId) ≠ none
  succeeds : Succeeds store command.threadId command.checkpointId command.expectedCheckpointId

variable {store' : CheckpointStore}

theorem parentIn_mono (hs : ∀ k r, store k = some r → store' k = some r) {a b : String}
    (h : ParentIn store t a b) : ParentIn store' t a b := by
  obtain ⟨record, hr, hp⟩ := h
  exact ⟨record, hs _ _ hr, hp⟩

theorem descends_mono (hs : ∀ k r, store k = some r → store' k = some r) {a b : String}
    (h : Descends store t a b) : Descends store' t a b :=
  Relation.TransGen.mono (fun _ _ hp => parentIn_mono hs hp) a b h

theorem initialAncestry_mono (hs : ∀ k r, store k = some r → store' k = some r)
    (hstored : store (t, c) ≠ none) (h : InitialAncestry store t c) : InitialAncestry store' t c := by
  have hback : ∀ a, Descends store' t c a → Descends store t c a := by
    intro a ha
    induction ha with
    | single hp =>
      obtain ⟨record, hr⟩ := Option.ne_none_iff_exists'.mp hstored
      obtain ⟨record', hr', hpar⟩ := hp
      rw [hs _ _ hr] at hr'
      cases hr'
      exact Relation.TransGen.single ⟨record, hr, hpar⟩
    | tail _ hp ih =>
      obtain ⟨record, hr, -⟩ := h _ ih
      obtain ⟨record', hr', hpar⟩ := hp
      rw [hs _ _ hr] at hr'
      cases hr'
      exact Relation.TransGen.tail ih ⟨record, hr, hpar⟩
  intro a ha
  obtain ⟨record, hr, hz⟩ := h a (hback a ha)
  exact ⟨record, hs _ _ hr, hz⟩

variable {command : PromoteCheckpoint}

theorem Certified.mono (h : Certified db.store command)
    (he : db.Evolves db') : Certified db'.store command where
  stored := by
    obtain ⟨record, hr⟩ := Option.ne_none_iff_exists'.mp h.stored
    rw [he.store _ _ hr]
    exact Option.some_ne_none record
  succeeds := by
    have hsucc := h.succeeds
    cases hc : command.expectedCheckpointId with
    | none =>
      rw [hc] at hsucc
      exact initialAncestry_mono he.store h.stored hsucc
    | some c =>
      rw [hc] at hsucc
      exact descends_mono he.store hsucc

def WorkerState.Ok (store : CheckpointStore) : WorkerState → Prop
  | .reconciling command | .promoting command _ => Certified store command
  | _ => True

theorem WorkerState.Ok.mono {st : WorkerState} (h : st.Ok db.store) (he : db.Evolves db') :
    st.Ok db'.store := by
  cases st with
  | reconciling command => exact Certified.mono h he
  | promoting command nodes => exact Certified.mono h he
  | _ => trivial

variable {records : List CheckpointRecord}

theorem listed_sound (h : WorkerState.listed db t records = true) : ListedFrom db.store t records := by
  intro record hmem
  simpa using List.all_eq_true.mp h record hmem

variable {runtime : RuntimeConfig}

theorem reconcileCandidate_certified {w : String} (hl : ListedFrom store thread.threadId records)
    (h : reconcileCandidate runtime thread records w = .ok (some command)) : Certified store command := by
  obtain ⟨ht, hc, ⟨record, hrec, hid⟩, hs⟩ := reconcileCandidate_ok hl h
  refine ⟨?_, ?_⟩
  · rw [ht, ← hid, (hl record hrec).2]
    exact Option.some_ne_none record
  · rw [ht, hc]
    exact hs

theorem runnerCommand_certified {node w : String} (hl : ListedFrom store thread.threadId records)
    (hb : latestBoundary thread node records = some record)
    (h : runnerCommand runtime thread record node w = .ok command) : Certified store command := by
  obtain ⟨ht, hc, -, hid⟩ := promotionCommand_ok h
  have hmem : record ∈ records := List.mem_of_find?_eq_some hb
  refine ⟨?_, ?_⟩
  · rw [ht, hid, (hl record hmem).2]
    exact Option.some_ne_none record
  · rw [ht, hc, hid]
    exact latestBoundary_succeeds hl hb

namespace WorkerState

/-- A worker leaves the overrides, their checkpoints and their fences alone. -/
theorem step_ok {worker : WorkerConfig} {o : WorkerOutcome} {st st' : WorkerState}
    (h : step worker o db st = some (st', db')) :
    db'.ledger = db.ledger ∧ db'.store = db.store ∧ db'.fence = db.fence ∧ st'.Ok db'.store := by
  cases st with
  | idle => cases h
  | finished => cases h
  | fetching t =>
    cases h
    refine ⟨rfl, rfl, rfl, ?_⟩
    unfold fetch
    split <;> trivial
  | listing thread =>
    simp only [step] at h
    split at h
    · rename_i hlist
      cases h
      refine ⟨rfl, rfl, rfl, ?_⟩
      unfold list
      split
      · trivial
      · split
        · trivial
        · trivial
        · rename_i hcand
          exact reconcileCandidate_certified (listed_sound hlist) hcand
    · cases h
  | reconciling command =>
    obtain ⟨rfl, rfl⟩ := Prod.mk.inj (Option.some.inj h)
    split
    · exact ⟨rfl, rfl, rfl, trivial⟩
    · rename_i hok
      obtain ⟨r, r', -, -, -, rfl⟩ := Db.updateThread_ok hok
      exact ⟨rfl, rfl, rfl, trivial⟩
  | deciding thread =>
    obtain ⟨rfl, rfl⟩ := Prod.mk.inj (Option.some.inj h)
    have hresume : ∀ (thread : RuntimeThread) (c : String) (store : CheckpointStore),
        (resume worker thread c).Ok store := by
      intro thread c store
      unfold resume
      split <;> trivial
    split
    · exact ⟨rfl, rfl, rfl, trivial⟩
    · split
      · split
        · exact ⟨rfl, rfl, rfl, trivial⟩
        · split
          · exact ⟨rfl, rfl, rfl, trivial⟩
          · rename_i hok
            obtain ⟨r, r', -, -, -, rfl⟩ := Db.updateThread_ok hok
            exact ⟨rfl, rfl, rfl, hresume _ _ _⟩
      · exact ⟨rfl, rfl, rfl, hresume _ _ _⟩
  | streaming current key =>
    cases h
    refine ⟨rfl, rfl, rfl, ?_⟩
    unfold stream
    split <;> trivial
  | resuming current key nodes =>
    obtain ⟨rfl, rfl⟩ := Prod.mk.inj (Option.some.inj h)
    split
    · exact ⟨rfl, rfl, rfl, trivial⟩
    · rename_i hok
      obtain ⟨r, r', -, -, -, rfl⟩ := Db.updateThread_ok hok
      exact ⟨rfl, rfl, rfl, trivial⟩
  | visiting current nodes =>
    simp only [step] at h
    split at h
    · rename_i hlist
      cases h
      refine ⟨rfl, rfl, rfl, ?_⟩
      unfold visit
      split
      · trivial
      · split
        · split <;> trivial
        · rename_i hb
          split
          · trivial
          · rename_i hcmd
            exact runnerCommand_certified (listed_sound hlist) hb hcmd
    · cases h
  | promoting command nodes =>
    obtain ⟨rfl, rfl⟩ := Prod.mk.inj (Option.some.inj h)
    split
    · exact ⟨rfl, rfl, rfl, trivial⟩
    · rename_i hok
      obtain ⟨r, r', -, -, -, rfl⟩ := Db.updateThread_ok hok
      exact ⟨rfl, rfl, rfl, trivial⟩

end WorkerState

/-! ### The override reconciler -/

/-- The item was read from the ledger, `PARTIAL`, and its row has only gone on since. -/
def ItemOk (db : Db) (item : RuntimeOverride) : Prop :=
  item.status = .partiallyDone ∧
    ∃ row, db.ledger.find item.overrideId = some row ∧ item.Continues row

theorem ItemOk.mono {item : RuntimeOverride} (h : ItemOk db item) (he : db.Evolves db') :
    ItemOk db' item := by
  obtain ⟨hs, row, hrow, hcont⟩ := h
  obtain ⟨row', hrow', hcont'⟩ := he.rows _ row hrow
  exact ⟨hs, row', hrow', hcont.trans hcont'⟩

namespace ReconcileState

def Ok (db : Db) : ReconcileState → Prop
  | .comparing item => ItemOk db item
  | .loadingSource item sourceId resultId => ItemOk db item ∧
      item.sourceCheckpointId = some sourceId ∧ item.resultCheckpointId = some resultId
  | .loadingResult item source resultId => ItemOk db item ∧
      item.resultCheckpointId = some resultId ∧
      ∃ record, source = some record ∧ item.sourceCheckpointId = some record.checkpointId ∧
        db.store (item.threadId, record.checkpointId) = some record
  | .promoting item result => ItemOk db item ∧ item.resultCheckpointId = some result.checkpointId
  | _ => True

theorem Ok.mono {st : ReconcileState} (h : st.Ok db) (he : db.Evolves db') : st.Ok db' := by
  cases st with
  | comparing item => exact ItemOk.mono h he
  | loadingSource item a b => exact ⟨ItemOk.mono h.1 he, h.2⟩
  | loadingResult item source b =>
    obtain ⟨hitem, hres, record, hsrc, hid, hst⟩ := h
    exact ⟨hitem.mono he, hres, record, hsrc, hid, he.store _ _ hst⟩
  | promoting item result => exact ⟨ItemOk.mono h.1 he, h.2⟩
  | _ => trivial

theorem item_columns {item : RuntimeOverride} (hs : item.status = .partiallyDone) (hcont : item.Continues row)
    {r : String} (hr : item.resultCheckpointId = some r) :
    row.sourceCheckpointId = item.sourceCheckpointId ∧ row.resultCheckpointId = some r :=
  ⟨(hcont.source (by rw [hs]; simp)).2, hcont.result r hr⟩

/-- So it does behind a step of a reconciliation. -/
theorem step_ok {st st' : ReconcileState} (hstore : StoreOk db.store) (hrows : RowsOk config db)
    (hok : st.Ok db) (h : step config o db st = some (st', db')) :
    RowsOk config db' ∧ SameSources db db' ∧ st'.Ok db' := by
  cases st with
  | idle => cases h
  | done result => cases h
  | crashed => cases h
  | fetching ov =>
    cases h
    refine ⟨hrows, SameSources.of_ledger rfl, ?_⟩
    unfold fetch
    split
    · trivial
    · rename_i item hitem
      split
      · rename_i hs
        refine ⟨hs, item, ?_, RuntimeOverride.Continues.refl item⟩
        rw [Table.find_key hitem]
        exact hitem
      · trivial
  | comparing item =>
    cases h
    refine ⟨hrows, SameSources.of_ledger rfl, ?_⟩
    unfold compare
    split
    · trivial
    · split
      · trivial
      · split
        · rename_i hsrc hres
          exact ⟨hok, hsrc, hres⟩
        · trivial
  | loadingSource item sourceId resultId =>
    cases h
    refine ⟨hrows, SameSources.of_ledger rfl, ?_⟩
    obtain ⟨⟨hs, row, hrow, hcont⟩, hsrc, hres⟩ := hok
    unfold loadSource
    split
    · trivial
    · obtain ⟨hsame, hres'⟩ := item_columns hs hcont hres
      obtain ⟨source, -, hid, hsok, -, -⟩ := (hrows _ row hrow).result resultId hres'
      rw [hsame, hsrc] at hid
      cases hid
      have hstored : db.store (item.threadId, source.checkpointId) = some source := by
        rw [← hcont.request.threadId]
        exact hsok.stored
      exact ⟨⟨hs, row, hrow, hcont⟩, hres, source, hstored, hsrc, hstored⟩
  | loadingResult item source resultId =>
    cases h
    refine ⟨hrows, SameSources.of_ledger rfl, ?_⟩
    obtain ⟨hitem, hres, -⟩ := hok
    unfold loadResult
    split
    · trivial
    · split
      · rename_i result _ hresult
        split
        · refine ⟨hitem, ?_⟩
          rw [hres, (hstore.filed _ _ _ hresult).2]
        · trivial
      · trivial
  | promoting item result =>
    obtain ⟨rfl, rfl⟩ := Prod.mk.inj (Option.some.inj h)
    split
    · exact ⟨hrows, SameSources.of_ledger rfl, trivial⟩
    · exact ⟨hrows, SameSources.of_ledger rfl, trivial⟩
    · rename_i hp
      exact ⟨hrows.promoteApplied hp, promoteApplied_sameSources hp, trivial⟩
  | closing ov write =>
    obtain ⟨rfl, rfl⟩ := Prod.mk.inj (Option.some.inj h)
    split
    · exact ⟨hrows, SameSources.of_ledger rfl, trivial⟩
    · rename_i hc
      exact ⟨hrows.close hc, close_sameSources hc, trivial⟩

end ReconcileState

/-! ### The system -/

variable {s s' : System}

namespace System

/-- The row or a claiming call names `c` as the source of the override. -/
def Names (s : System) (ov c : String) : Prop :=
  (∃ row, s.db.ledger.find ov = some row ∧ row.sourceCheckpointId = some c) ∨
    ∃ i, (s.calls i).source = some (ov, c)

/-- The invariant of this file. -/
structure Provenance (worker : WorkerConfig) (s : System) : Prop where
  store : StoreOk s.db.store
  threadIds : ∀ t r, s.db.threads t = some r → r.row.threadId = t
  rows : RowsOk worker.runtime s.db
  calls : ∀ i, (s.calls i).Ok worker.runtime s.db
  reconciles : ∀ r, (s.reconciles r).Ok s.db
  workers : ∀ w, (s.workers w).Ok s.db.store
  agree : ∀ ov c c', s.Names ov c → s.Names ov c' → c = c'
  pinned : ∀ ov c, s.Names ov c → ∃ row, s.db.ledger.find ov = some row ∧
    Pinned s.db row.threadId row.expectedVersion c

/-- What a new name rests on: the thread stands at the override's version with that checkpoint. -/
def Fresh (db : Db) (ov c : String) : Prop :=
  ∃ row r, db.ledger.find ov = some row ∧ db.threads row.threadId = some r ∧
    r.row.stateVersion = row.expectedVersion ∧ r.row.currentCheckpointId = some c

variable {worker : WorkerConfig}

variable {a : Action}

/-- A step of the workers' side leaves the ledger, the calls and the reconciliations alone. -/
theorem step_workers (ha : a.overrides = false) (hp : Provenance worker s)
    (h : step worker s a = some s') : s'.db.ledger = s.db.ledger ∧ s'.calls = s.calls ∧
      s'.reconciles = s.reconciles ∧ ∀ w, (s'.workers w).Ok s'.db.store := by
  have hworkers : ∀ w, (s.workers w).Ok s'.db.store := fun w =>
    (hp.workers w).mono (step_change h).evolves
  have hworker : ∀ w₀ (st : WorkerState), st.Ok s'.db.store →
      ∀ w, (update s.workers w₀ st w).Ok s'.db.store := fun _ _ hst =>
    (forall_update_iff s.workers fun _ st => st.Ok s'.db.store).mpr ⟨hst, fun w _ => hworkers w⟩
  cases a with
  | beginWorker w t =>
    simp only [step] at h
    split at h
    · cases h
      exact ⟨rfl, rfl, rfl, hworker w _ trivial⟩
    · cases h
  | advanceWorker w o =>
    obtain ⟨⟨st, db⟩, hstep, rfl⟩ := Option.map_eq_some_iff.mp h
    obtain ⟨hl, -, -, hok⟩ := WorkerState.step_ok hstep
    exact ⟨hl, rfl, rfl, hworker w st hok⟩
  | crashWorker w =>
    cases h
    exact ⟨rfl, rfl, rfl, hworker w _ trivial⟩
  | saveCheckpoint record =>
    obtain ⟨db, hs, rfl⟩ := Option.map_eq_some_iff.mp h
    refine ⟨?_, rfl, rfl, hworkers⟩
    obtain ⟨-, -, rfl⟩ := Db.saveCheckpoint_eq_some.mp hs
    rfl
  | createThread taskId t =>
    obtain ⟨db, hs, rfl⟩ := Option.map_eq_some_iff.mp h
    refine ⟨?_, rfl, rfl, hworkers⟩
    unfold Db.createThread at hs
    split at hs
    · cases hs
    · cases hs
      rfl
  | terminate t key w node code now commits =>
    simp only [step] at h
    cases hm : s.db.markTerminal t key w node code now commits with
    | error e => rw [hm] at h; cases h
    | ok p =>
      rw [hm] at h
      cases h
      obtain ⟨r, r', -, -, -, hdb⟩ := Db.updateThread_ok hm
      refine ⟨?_, rfl, rfl, hworkers⟩
      show p.2.ledger = _
      rw [hdb]
      rfl
  | _ => cases ha

/-- A name is an old one, or rests on where the thread stands. -/
theorem names_step (hp : Provenance worker s) (h : step worker s a = some s')
    (hn : s'.Names ov c) : s.Names ov c ∨ Fresh s'.db ov c := by
  have hsame : SameSources s.db s'.db → s'.calls = s.calls → s.Names ov c := by
    intro hss hcalls
    obtain ⟨row', hrow', hsrc⟩ | ⟨i, hi⟩ := hn
    · obtain ⟨row, hrow, hs, -⟩ := hss ov row' hrow'
      exact .inl ⟨row, hrow, hs ▸ hsrc⟩
    · exact .inr ⟨i, hcalls ▸ hi⟩
  -- a call that moves to a state without a source adds no name
  have hquiet : ∀ c₀ st, s'.db = s.db → st.source = none →
      s'.calls = update s.calls c₀ st → s.Names ov c := by
    intro c₀ st hdb hnone hcalls
    obtain ⟨row', hrow', hsrc⟩ | ⟨i, hi⟩ := hn
    · rw [hdb] at hrow'
      exact .inl ⟨row', hrow', hsrc⟩
    · rw [hcalls, update_apply] at hi
      split at hi
      · rw [hnone] at hi
        cases hi
      · exact .inr ⟨i, hi⟩
  cases a with
  | beginApply c₀ input =>
    simp only [step] at h
    split at h
    · cases h
      exact .inl (hquiet c₀ _ rfl rfl rfl)
    · cases h
  | crash c₀ =>
    simp only [step] at h
    split at h
    · cases h
      exact .inl (hquiet c₀ _ rfl rfl rfl)
    · cases h
  | advance c₀ o =>
    obtain ⟨⟨st, db, locks⟩, hstep, rfl⟩ := Option.map_eq_some_iff.mp h
    obtain ⟨row', hrow', hsrc⟩ | ⟨i, hi⟩ := hn
    · refine .inl ?_
      obtain ⟨row, hrow, hs⟩ | hs := ApplyState.step_rowSource hstep hrow' hsrc
      · exact .inl ⟨row, hrow, hs⟩
      · exact .inr ⟨c₀, hs⟩
    · have hi' : (update s.calls c₀ st i).source = some (ov, c) := hi
      rw [update_apply] at hi'
      split at hi'
      · obtain hs | ⟨ctx, thread, source, row, hst, rfl, rfl, hclaim⟩ :=
          ApplyState.step_source hstep hi'
        · exact .inl (Or.inr ⟨c₀, hs⟩)
        · -- the claim compared the thread with the call's snapshot
          refine .inr ?_
          have hok := hp.calls c₀
          rw [hst] at hok
          obtain ⟨⟨row₀, hrow₀, hreq⟩, hb⟩ := hok
          obtain ⟨r, hr, hbound, rfl⟩ := Db.claimOverrideBoundary_ok hclaim
          obtain ⟨-, hcur, hver, -⟩ := ThreadRecord.atBoundary_iff.mp hbound
          refine ⟨row₀, r.claimed .overriding none, hrow₀, ?_, ?_, hcur⟩
          · rw [Db.threads_raise, hreq.threadId, Db.threads_setThread, if_pos rfl]
          · show r.row.stateVersion = row₀.expectedVersion
            rw [hver, hb.version, hreq.expectedVersion]
      · exact .inl (Or.inr ⟨i, hi'⟩)
  | expireLock t => cases h; exact .inl (hsame (SameSources.of_ledger rfl) rfl)
  | beginReconcile r ov₀ =>
    simp only [step] at h
    split at h
    · cases h; exact .inl (hsame (SameSources.of_ledger rfl) rfl)
    · cases h
  | advanceReconcile r o =>
    obtain ⟨⟨st, db⟩, hstep, rfl⟩ := Option.map_eq_some_iff.mp h
    exact .inl (hsame (ReconcileState.step_ok hp.store hp.rows (hp.reconciles r) hstep).2.1 rfl)
  | crashReconcile r =>
    simp only [step] at h
    split at h
    · cases h; exact .inl (hsame (SameSources.of_ledger rfl) rfl)
    · cases h
  | _ =>
    obtain ⟨hledger, hcalls, -⟩ := step_workers rfl hp h
    exact .inl (hsame (SameSources.of_ledger hledger) hcalls)

end System

variable {issued : PromoteCheckpoint → Prop}

theorem Db.Change.storeOk (h : Db.Change issued db db') (hs : StoreOk db.store) : StoreOk db'.store := by
  cases h with
  | saved hsave =>
    obtain ⟨hfree, hparent, rfl⟩ := Db.saveCheckpoint_eq_some.mp hsave
    rename_i record
    constructor
    · intro t c record' hr
      have hr' : update db.store (record.threadId, record.checkpointId) (some record)
          (t, c) = some record' := hr
      rw [update_apply] at hr'
      split at hr'
      · rename_i hk
        obtain ⟨rfl, rfl⟩ := Prod.mk.inj hk
        cases hr'
        exact ⟨rfl, rfl⟩
      · exact hs.filed t c record' hr'
    · intro t c record' p hr hp
      have hr' : update db.store (record.threadId, record.checkpointId) (some record)
          (t, c) = some record' := hr
      show update db.store (record.threadId, record.checkpointId) (some record)
          (t, p) ≠ none
      rw [update_apply] at hr' ⊢
      split
      · exact Option.some_ne_none record
      · split at hr'
        · rename_i hk
          obtain ⟨rfl, rfl⟩ := Prod.mk.inj hk
          cases hr'
          exact hparent p hp
        · exact hs.parent t c record' p hr' hp
  | applied _ _ _ =>
    rw [Db.store_lower]
    exact hs
  | _ => exact hs

theorem Db.Change.threadIds (h : Db.Change issued db db')
    (hs : ∀ t r, db.threads t = some r → r.row.threadId = t) :
    ∀ t r, db'.threads t = some r → r.row.threadId = t := by
  -- the one thread a change writes keeps its id
  have hset : ∀ t₀ r₀, r₀.row.threadId = t₀ → ∀ t r, (db.setThread t₀ r₀).threads t = some r →
      r.row.threadId = t := by
    intro t₀ r₀ h₀ t r hr
    rw [Db.threads_setThread] at hr
    split at hr
    · rename_i ht
      cases hr
      rw [h₀, ht]
    · exact hs t r hr
  cases h with
  | @steered t r r' fence hr hsteer => exact hset t r' (hsteer.threadId.trans (hs t r hr))
  | @promoted r command hr _ _ _ => exact hset _ _ (hs _ r hr)
  | @applied row t c size now _ ht _ =>
    intro t' r hr
    rw [Db.threads_lower] at hr
    exact hset row.threadId (applyOverride t row c size) (hs _ t ht) t' r hr
  | @created taskId t _ => exact hset t _ rfl
  | saved hsave =>
    obtain ⟨-, -, rfl⟩ := Db.saveCheckpoint_eq_some.mp hsave
    exact hs
  | _ => exact hs

namespace System

variable {worker : WorkerConfig} {a : Action}

theorem Provenance.fresh_eq (hp : Provenance worker s) (he : s.db.Evolves s'.db) {c' : String}
    (hn : s.Names ov c) (hf : Fresh s'.db ov c') : c = c' := by
  obtain ⟨row, hrow, hpin⟩ := hp.pinned ov c hn
  obtain ⟨row', r, hrow', hr, hv, hc⟩ := hf
  obtain ⟨row'', hrow'', hcont⟩ := he.rows ov row hrow
  rw [hrow'] at hrow''
  cases hrow''
  obtain ⟨r', hr', -, hcur⟩ := hpin.mono he
  rw [← hcont.request.threadId, hr] at hr'
  cases hr'
  rw [hcur (by rw [hv, hcont.request.expectedVersion])] at hc
  exact Option.some.inj hc

/-- The names of an override after a step are one checkpoint: two old ones agree, and a fresh one is
the canonical checkpoint of a thread that has not passed the override's version. -/
theorem step_names_agree (hp : Provenance worker s) (h : step worker s a = some s') {c' : String}
    (hn : s'.Names ov c) (hn' : s'.Names ov c') : c = c' := by
  have he := (step_change h).evolves
  obtain hn | hf := names_step hp h hn
  · obtain hn' | hf' := names_step hp h hn'
    · exact hp.agree ov c c' hn hn'
    · exact hp.fresh_eq he hn hf'
  · obtain hn' | hf' := names_step hp h hn'
    · exact (hp.fresh_eq he hn' hf).symm
    · obtain ⟨row, r, hrow, hr, -, hc⟩ := hf
      obtain ⟨row', r', hrow', hr', -, hc'⟩ := hf'
      rw [hrow] at hrow'
      cases hrow'
      rw [hr] at hr'
      cases hr'
      rw [hc] at hc'
      exact Option.some.inj hc'

theorem step_names_pinned (hp : Provenance worker s) (h : step worker s a = some s')
    (hn : s'.Names ov c) : ∃ row, s'.db.ledger.find ov = some row ∧
      Pinned s'.db row.threadId row.expectedVersion c := by
  have he := (step_change h).evolves
  obtain hn | ⟨row, r, hrow, hr, hv, hc⟩ := names_step hp h hn
  · obtain ⟨row, hrow, hpin⟩ := hp.pinned ov c hn
    obtain ⟨row', hrow', hcont⟩ := he.rows ov row hrow
    refine ⟨row', hrow', ?_⟩
    rw [hcont.request.threadId, hcont.request.expectedVersion]
    exact hpin.mono he
  · exact ⟨row, hrow, r, hr, Nat.le_of_eq hv.symm, fun _ => hc⟩

/-- Every step keeps the invariant: what the moved party now carries, beside the others. -/
theorem step_provenance (hp : Provenance worker s) (h : step worker s a = some s') :
    Provenance worker s' := by
  have hch := step_change h
  have he := hch.evolves
  have hcalls : ∀ i, (s.calls i).Ok worker.runtime s'.db := fun i => (hp.calls i).mono he
  have hrecs : ∀ r, (s.reconciles r).Ok s'.db := fun r => (hp.reconciles r).mono he
  have hworkers : ∀ w, (s.workers w).Ok s'.db.store := fun w => (hp.workers w).mono he
  have hrest : RowsOk worker.runtime s'.db → (∀ i, (s'.calls i).Ok worker.runtime s'.db) →
      (∀ r, (s'.reconciles r).Ok s'.db) → (∀ w, (s'.workers w).Ok s'.db.store) →
      Provenance worker s' := fun hrows hcalls hrec hwork =>
    ⟨hch.storeOk hp.store, hch.threadIds hp.threadIds, hrows, hcalls, hrec, hwork,
      fun _ _ _ => step_names_agree hp h, fun _ _ => step_names_pinned hp h⟩
  have hcall : ∀ c₀ (st : ApplyState), st.Ok worker.runtime s'.db →
      ∀ i, (update s.calls c₀ st i).Ok worker.runtime s'.db := fun _ _ hst =>
    (forall_update_iff s.calls fun _ st => st.Ok worker.runtime s'.db).mpr ⟨hst, fun i _ => hcalls i⟩
  have hrec : ∀ r₀ (st : ReconcileState), st.Ok s'.db →
      ∀ r, (update s.reconciles r₀ st r).Ok s'.db := fun _ _ hst =>
    (forall_update_iff s.reconciles fun _ st => st.Ok s'.db).mpr ⟨hst, fun r _ => hrecs r⟩
  cases a with
  | beginApply c₀ input =>
    simp only [step] at h
    split at h
    · cases h
      exact hrest hp.rows (hcall c₀ (.entered input) trivial) hrecs hworkers
    · cases h
  | crash c₀ =>
    simp only [step] at h
    split at h
    · cases h
      exact hrest hp.rows (hcall c₀ .crashed trivial) hrecs hworkers
    · cases h
  | advance c₀ o =>
    obtain ⟨⟨st, db, locks⟩, hstep, rfl⟩ := Option.map_eq_some_iff.mp h
    have hagree : ∀ ov c row c', (s.calls c₀).source = some (ov, c) →
        s.db.ledger.find ov = some row → row.sourceCheckpointId = some c' → c' = c :=
      fun ov c row c' hs hrow hc' => hp.agree ov c' c (Or.inl ⟨row, hrow, hc'⟩) (Or.inr ⟨c₀, hs⟩)
    obtain ⟨hrows, hok⟩ := ApplyState.step_ok hp.store hp.rows (hp.calls c₀) hagree hstep
    exact hrest hrows (hcall c₀ st hok) hrecs hworkers
  | expireLock t => cases h; exact hrest hp.rows hcalls hrecs hworkers
  | beginReconcile r ov₀ =>
    simp only [step] at h
    split at h
    · cases h
      exact hrest hp.rows hcalls (hrec r (.fetching ov₀) trivial) hworkers
    · cases h
  | advanceReconcile r o =>
    obtain ⟨⟨st, db⟩, hstep, rfl⟩ := Option.map_eq_some_iff.mp h
    obtain ⟨hrows, -, hok⟩ := ReconcileState.step_ok hp.store hp.rows (hp.reconciles r) hstep
    exact hrest hrows hcalls (hrec r st hok) hworkers
  | crashReconcile r =>
    simp only [step] at h
    split at h
    · cases h
      exact hrest hp.rows hcalls (hrec r .crashed trivial) hworkers
    · cases h
  | _ =>
    obtain ⟨hledger, hc, hr, hwork⟩ := step_workers rfl hp h
    exact hrest (hp.rows.mono he hledger) (hc ▸ hcalls) (hr ▸ hrecs) hwork

end System

end CountyFlow.Override
