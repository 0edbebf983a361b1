import CountyFlow.Override.Effect
import CountyFlow.Override.Ownership

/-!
# The owner of a fence

A thread that is `OVERRIDING` waits for its override: for the call that raised the fence, or, when
that call has crashed, for a replay or a reconciliation.  Either can help only if the ledger row still
says that the override is under way and still describes the boundary of the thread.
-/

namespace CountyFlow.Override

open CountyFlow.Lib CountyFlow.Core CountyFlow.Runtime Function

variable {config : RuntimeConfig}

/-! ### Calls and their rows -/

/-- The call works on a `PENDING` row. -/
def ApplyState.prelude : ApplyState → Bool
  | .requesting _ | .loading _ | .reading _ _ | .claiming _ _ _ | .marking _ _ _ => true
  | _ => false

variable {db' : Db} {locks locks' : Locks} {st' : ApplyState}

theorem ApplyState.step_prelude {c : ℕ} {o : Outcome} {db : Db} {st : ApplyState}
    (h : step config c o db locks st = some (st', db', locks')) (hpre : st'.prelude = true) :
    (st.prelude = true ∧ db'.ledger = db.ledger ∧
        ∀ ctx thread source, st ≠ .marking ctx thread source) ∨
      ∃ input command, st = .reserving input command := by
  cases step_moves h with
  | begun => exact .inr ⟨_, _, rfl⟩
  | locked | loaded | allowed => exact .inl ⟨rfl, rfl, by simp⟩
  | claimed hclaim => exact .inl ⟨rfl, Db.ledger_claimOverrideBoundary hclaim, by simp⟩
  | _ => cases hpre

/-- What a call that repairs or closes its row relies on. -/
def ApplyState.Tended (db : Db) : ApplyState → Prop
  | .recovering ctx stored | .releasing ctx stored =>
    ∃ row, db.ledger.find ctx.overrideId = some row ∧ row.status ≠ .pending ∧
      stored.sourceCheckpointId = row.sourceCheckpointId ∧
      stored.expectedVersion = row.expectedVersion ∧
      stored.expectedNextNode = row.expectedNextNode
  | .closing ctx (.finish _ _ _) _ => ¬ Holds db ctx.threadId ctx.overrideId
  | .closing ctx (.markPartial _) _ =>
    ∃ row, db.ledger.find ctx.overrideId = some row ∧ row.resultCheckpointId ≠ none
  | _ => True

def ReconcileState.Tended (db : Db) : ReconcileState → Prop
  | .comparing item | .loadingSource item _ _ | .loadingResult item _ _ | .promoting item _ =>
    item.resultCheckpointId ≠ none
  | .closing ov (.finish _ _ _) =>
    ∃ row, db.ledger.find ov = some row ∧ row.status ≠ .pending ∧ ¬ Holds db row.threadId ov
  | .closing ov (.markPartial _) =>
    ∃ row, db.ledger.find ov = some row ∧ row.status ≠ .pending ∧ row.resultCheckpointId ≠ none
  | _ => True

theorem ApplyState.Tended.mono {db : Db} {st : ApplyState} (h : st.Tended db) (he : db.Evolves db')
    (hholds : ∀ t ov, st.override = some ov → Holds db' t ov → Holds db t ov) : st.Tended db' := by
  have hrows : ∀ ctx : ApplyContext, ∀ stored : RuntimeOverride,
      (∃ row, db.ledger.find ctx.overrideId = some row ∧ row.status ≠ .pending ∧
        stored.sourceCheckpointId = row.sourceCheckpointId ∧
        stored.expectedVersion = row.expectedVersion ∧
        stored.expectedNextNode = row.expectedNextNode) →
      ∃ row, db'.ledger.find ctx.overrideId = some row ∧ row.status ≠ .pending ∧
        stored.sourceCheckpointId = row.sourceCheckpointId ∧
        stored.expectedVersion = row.expectedVersion ∧
        stored.expectedNextNode = row.expectedNextNode := by
    rintro ctx stored ⟨row, hrow, hs, hsource, hversion, hnext⟩
    obtain ⟨row', hrow', hcont⟩ := he.rows _ row hrow
    obtain ⟨hs', hsource'⟩ := hcont.source hs
    exact ⟨row', hrow', hs', hsource.trans hsource'.symm,
      hversion.trans hcont.request.expectedVersion.symm,
      hnext.trans hcont.request.expectedNextNode.symm⟩
  cases st with
  | recovering ctx stored => exact hrows ctx stored h
  | releasing ctx stored => exact hrows ctx stored h
  | closing ctx w locked =>
    cases w with
    | finish st d code => exact fun hh => h (hholds _ _ rfl hh)
    | markPartial code =>
      obtain ⟨row, hrow, hres⟩ := h
      obtain ⟨row', hrow', hcont⟩ := he.rows _ row hrow
      obtain ⟨c, hc⟩ := Option.ne_none_iff_exists'.mp hres
      exact ⟨row', hrow', by rw [hcont.result c hc]; exact Option.some_ne_none c⟩
  | _ => trivial

theorem ReconcileState.Tended.mono {db : Db} {st : ReconcileState} (h : st.Tended db) (he : db.Evolves db')
    (hholds : ∀ t ov, st.override = some ov → Holds db' t ov → Holds db t ov) : st.Tended db' := by
  cases st with
  | closing ov w =>
    cases w with
    | finish st d code =>
      obtain ⟨row, hrow, hs, hno⟩ := h
      obtain ⟨row', hrow', hcont⟩ := he.rows _ row hrow
      refine ⟨row', hrow', (hcont.source hs).1, ?_⟩
      rw [hcont.request.threadId]
      exact fun hh => hno (hholds _ _ rfl hh)
    | markPartial code =>
      obtain ⟨row, hrow, hs, hres⟩ := h
      obtain ⟨row', hrow', hcont⟩ := he.rows _ row hrow
      obtain ⟨c, hc⟩ := Option.ne_none_iff_exists'.mp hres
      exact ⟨row', hrow', (hcont.source hs).1, by
        rw [hcont.result c hc]
        exact Option.some_ne_none c⟩
  | comparing item => exact h
  | loadingSource item a b => exact h
  | loadingResult item a b => exact h
  | promoting item result => exact h
  | _ => trivial

/-! ### The invariant -/

variable {t : String} {ctx : ApplyContext} {r : ThreadRecord} {item : RuntimeOverride} {i : ℕ} {s' : System}
  {thread : RuntimeThread} {source : CheckpointRecord}

namespace System

/-- The steps that leave every fence an owner. -/
def Tended (s : System) : Action → Prop
  | .beginApply _ _ | .expireLock _ | .beginReconcile _ _ | .crashReconcile _ => True
  | .advance c _ => ∀ input command, s.calls c = .reserving input command →
      command.expectedNextNode ≠ none ∧ ∀ row, s.db.byKey command.idempotencyKey = some row →
        row.status = .pending → ∀ c', (s.calls c').override ≠ some row.overrideId
  | .crash c => ∀ ctx thread source, s.calls c ≠ .marking ctx thread source
  | .advanceReconcile r o =>
    ∀ item result, s.reconciles r = .promoting item result → o.commits = true
  | .beginWorker _ _ | .advanceWorker _ _ | .crashWorker _ | .saveCheckpoint _
  | .createThread _ _ | .terminate _ _ _ _ _ _ _ => False

/-- Every `OVERRIDING` thread carries a fence. -/
def Raised (db : Db) : Prop :=
  ∀ t r, db.threads t = some r → r.row.status = .overriding → db.fence t ≠ none

/-- The row of the override describes the boundary of the thread, and is under way: marked, or about
to be marked by a call. -/
def Owner (s : System) (t ov : String) : Prop :=
  ∃ row r, s.db.ledger.find ov = some row ∧ row.threadId = t ∧ s.db.threads t = some r ∧
    row.expectedVersion = r.row.stateVersion ∧ row.expectedNextNode = r.row.nextNode ∧
    (((row.status = .applying ∨ row.status = .partiallyDone) ∧
        row.sourceCheckpointId = r.row.currentCheckpointId) ∨
      ∃ c ctx thread source, s.calls c = .marking ctx thread source ∧ ctx.overrideId = ov ∧
        r.row.currentCheckpointId = some source.checkpointId)

/-- Every fence has an owner, with what the processes contribute to that. -/
structure Owned (s : System) : Prop where
  raised : Raised s.db
  named : ∀ ov row, s.db.ledger.find ov = some row → row.expectedNextNode ≠ none
  attached : ∀ ov row, s.db.ledger.find ov = some row → row.status = .partiallyDone →
    row.resultCheckpointId ≠ none
  prelude : ∀ c ov, (s.calls c).override = some ov → (s.calls c).prelude = true →
    (∃ row, s.db.ledger.find ov = some row ∧ row.status = .pending) ∧
      ∀ c', (s.calls c').override = some ov → c' = c
  calls : ∀ c, (s.calls c).Tended s.db
  reconciles : ∀ r, (s.reconciles r).Tended s.db
  held : ∀ t ov, Holds s.db t ov → s.Owner t ov

variable {worker : WorkerConfig}

variable {s : System} {ov : String}

theorem Owned.owner_marked (ho : s.Owned) (hh : Holds s.db t ov)
    (hmark : ∀ c ctx thread source, s.calls c = .marking ctx thread source → ctx.overrideId ≠ ov) :
    ∃ row r, s.db.ledger.find ov = some row ∧ row.threadId = t ∧ s.db.threads t = some r ∧
      r.row.status = .overriding ∧ row.expectedVersion = r.row.stateVersion ∧
      row.expectedNextNode = r.row.nextNode ∧
      (row.status = .applying ∨ row.status = .partiallyDone) ∧
      row.sourceCheckpointId = r.row.currentCheckpointId := by
  obtain ⟨row, r, hrow, ht, hr, hv, hn, ⟨hs, hc⟩ | ⟨c, ctx, thread, source, hst, hov, -⟩⟩ :=
    ho.held t ov hh
  · obtain ⟨-, r', hr', hs'⟩ := hh
    rw [hr] at hr'
    cases hr'
    exact ⟨row, r, hrow, ht, hr, hs', hv, hn, hs, hc⟩
  · exact absurd hov (hmark c ctx thread source hst)

variable {c : ℕ}

theorem Owned.not_marking (ho : s.Owned) (hc : (s.calls c).override = some ov)
    (hst : ∀ ctx thread source, s.calls c ≠ .marking ctx thread source) (c' : ℕ) (ctx : ApplyContext)
    (thread : RuntimeThread) (source : CheckpointRecord) (hc' : s.calls c' = .marking ctx thread source) :
    ctx.overrideId ≠ ov := by
  intro hov
  have hpre := ho.prelude c' ov (by rw [hc']; exact congrArg some hov) (by rw [hc']; rfl)
  obtain rfl := hpre.2 c hc
  exact hst ctx thread source hc'

variable {row : RuntimeOverride}

theorem Owned.not_marking_of_status (ho : s.Owned) (hrow : s.db.ledger.find ov = some row)
    (hs : row.status ≠ .pending) (c : ℕ) (ctx : ApplyContext) (thread : RuntimeThread)
    (source : CheckpointRecord) (hc : s.calls c = .marking ctx thread source) : ctx.overrideId ≠ ov := by
  intro hov
  obtain ⟨⟨row', hrow', hs'⟩, -⟩ :=
    ho.prelude c ov (by rw [hc]; exact congrArg some hov) (by rw [hc]; rfl)
  rw [hrow] at hrow'
  cases hrow'
  exact hs hs'

theorem Owned.prelude_not_holds (ho : s.Owned) (hc : (s.calls c).override = some ov)
    (hpre : (s.calls c).prelude = true)
    (hst : ∀ ctx thread source, s.calls c ≠ .marking ctx thread source) : ¬ Holds s.db t ov := by
  intro hh
  obtain ⟨⟨row, hrow, hs⟩, -⟩ := ho.prelude c ov hc hpre
  obtain ⟨row', r, hrow', -, -, -, -, -, hs', -⟩ := ho.owner_marked hh (ho.not_marking hc hst)
  rw [hrow] at hrow'
  cases hrow'
  rw [hs] at hs'
  rcases hs' with hs' | hs' <;> cases hs'

variable {db : Db}

theorem tended_finishing {w : Closing} {locked : Bool} (hw : w.finishes = true)
    (h : ¬ Holds db ctx.threadId ctx.overrideId) : (ApplyState.closing ctx w locked).Tended db := by
  cases w with
  | finish st d code => exact h
  | markPartial code => cases hw

theorem release_of_owner (hr : db.threads t = some r) (hs : r.row.status = .overriding)
    (hv : row.expectedVersion = r.row.stateVersion) (hn : row.expectedNextNode = r.row.nextNode)
    (hc : row.sourceCheckpointId = r.row.currentCheckpointId) (hsource : row.sourceCheckpointId ≠ none)
    (hnext : row.expectedNextNode ≠ none) :
    db.releaseOverrideBoundary t (row.sourceCheckpointId.getD "") row.expectedVersion
      (row.expectedNextNode.getD "") ov = .ok (r.released.row, (db.setThread t r.released).lower t ov) := by
  obtain ⟨c, hsome⟩ := Option.ne_none_iff_exists'.mp hsource
  obtain ⟨n, hnode⟩ := Option.ne_none_iff_exists'.mp hnext
  have hb : r.atBoundary .overriding (row.sourceCheckpointId.getD "") row.expectedVersion
      (row.expectedNextNode.getD "") = true := by
    rw [ThreadRecord.atBoundary_iff, hsome, hnode]
    refine ⟨hs, ?_, hv.symm, ?_⟩
    · rw [← hc, hsome]
      rfl
    · rw [← hn, hnode]
      rfl
  unfold Db.releaseOverrideBoundary Db.updateThread
  rw [hr]
  simp only [ThreadRecord.releaseOverrideBoundary, if_pos hb]
  rfl

theorem Provenance.source_ne_none (hp : Provenance worker s) (ho : s.Owned)
    (hrow : s.db.ledger.find ov = some row) (hs : row.status = .applying ∨ row.status = .partiallyDone) :
    row.sourceCheckpointId ≠ none := by
  rcases hs with hs | hs
  · exact (hp.rows ov row hrow).applying hs
  · obtain ⟨c, hc⟩ := Option.ne_none_iff_exists'.mp (ho.attached ov row hrow hs)
    obtain ⟨source, -, hsource, -⟩ := (hp.rows ov row hrow).result c hc
    rw [hsource]
    exact Option.some_ne_none _

variable {o : Outcome} {st : ApplyState}

/-- After its step a call can rely on what its next one needs. -/
theorem step_call_tended (hp : Provenance worker s) (ho : s.Owned)
    (h : ApplyState.step worker.runtime c o s.db s.locks (s.calls c) = some (st, db, locks)) :
    st.Tended db := by
  have hcall := ho.calls c
  have hok := hp.calls c
  -- A call that is on an override and does not mark it holds its thread only at the recorded boundary.
  have howner : ∀ ctx : ApplyContext, (s.calls c).override = some ctx.overrideId →
      (∀ ctx thread source, s.calls c ≠ .marking ctx thread source) →
      Holds s.db ctx.threadId ctx.overrideId → ∃ row r,
        s.db.ledger.find ctx.overrideId = some row ∧ s.db.threads ctx.threadId = some r ∧
        r.row.status = .overriding ∧ row.expectedVersion = r.row.stateVersion ∧
        row.expectedNextNode = r.row.nextNode ∧
        (row.status = .applying ∨ row.status = .partiallyDone) ∧
        row.sourceCheckpointId = r.row.currentCheckpointId := by
    intro ctx hov hst hh
    obtain ⟨row, r, hrow, -, hr, hs, hv, hn, hstatus, hc⟩ :=
      ho.owner_marked hh (ho.not_marking hov hst)
    exact ⟨row, r, hrow, hr, hs, hv, hn, hstatus, hc⟩
  have hbefore : ∀ ctx : ApplyContext, (s.calls c).override = some ctx.overrideId →
      (s.calls c).prelude = true → (∀ ctx thread source, s.calls c ≠ .marking ctx thread source) →
      ¬ Holds s.db ctx.threadId ctx.overrideId :=
    fun ctx hov hpre hst => ho.prelude_not_holds hov hpre hst
  generalize s.calls c = st₀ at h hcall hok howner hbefore
  cases ApplyState.step_moves h with
  | repairing hb hs hres =>
    obtain ⟨ov, role, now, rfl, -⟩ := hok
    exact ⟨_, (beginOrReplay_provenance hp.rows hb).2.1, hres⟩
  | recovering hb hs =>
    obtain ⟨ov, role, now, rfl, -⟩ := hok
    refine ⟨_, (beginOrReplay_provenance hp.rows hb).2.1, ?_, rfl, rfl, rfl⟩
    rw [hs]
    decide
  | @unfenced ctx stored hno =>
    intro hh
    obtain ⟨row, r, hrow, hr, hs, hv, hn, -, hcur⟩ := howner ctx rfl (by simp) hh
    obtain ⟨row', hrow', -, hsource, hversion, hnext⟩ := hcall
    rw [hrow] at hrow'
    cases hrow'
    exact hno r hr ⟨hs, by rw [hsource, hcur], by rw [hversion, hv], by rw [hnext, hn]⟩
  | fenced => exact hcall
  | @unreleased ctx stored e hrel =>
    intro hh
    obtain ⟨row, r, hrow, hr, hs, hv, hn, hstatus, hcur⟩ := howner ctx rfl (by simp) hh
    obtain ⟨row', hrow', -, hsource, hversion, hnext⟩ := hcall
    rw [hrow] at hrow'
    cases hrow'
    rw [hsource, hversion, hnext, release_of_owner hr hs hv hn hcur
      (hp.source_ne_none ho hrow hstatus) (ho.named _ _ hrow)] at hrel
    cases hrel
  | released hrel | undone hrel => exact (takesDown_release hrel).not_holds
  | busy hw | unfit hw | declined hw | unclaimed hw =>
    exact tended_finishing hw (hbefore _ rfl rfl (by simp))
  | conflicting =>
    obtain ⟨-, -, row₀, hrow₀, hres₀⟩ := hok
    exact ⟨row₀, hrow₀, by rw [hres₀]; exact Option.some_ne_none _⟩
  | _ => trivial

theorem item_row (hitem : ItemOk db item) (hres : item.resultCheckpointId ≠ none) :
    ∃ row, db.ledger.find item.overrideId = some row ∧ row.status ≠ .pending ∧
      row.resultCheckpointId ≠ none ∧ item.threadId = row.threadId ∧
      item.sourceCheckpointId = row.sourceCheckpointId ∧
      item.expectedVersion = row.expectedVersion := by
  obtain ⟨hs, row, hrow, hcont⟩ := hitem
  obtain ⟨hs', hsource⟩ := hcont.source (by rw [hs]; decide)
  obtain ⟨c, hc⟩ := Option.ne_none_iff_exists'.mp hres
  refine ⟨row, hrow, hs', ?_, hcont.request.threadId.symm, hsource.symm,
    hcont.request.expectedVersion.symm⟩
  rw [hcont.result c hc]
  exact Option.some_ne_none c

theorem tended_invalid (hitem : ItemOk db item) (hres : item.resultCheckpointId ≠ none) (code : String) :
    (ReconcileState.invalid item.overrideId code).Tended db := by
  obtain ⟨row, hrow, hs, hres', -⟩ := item_row hitem hres
  exact ⟨row, hrow, hs, hres'⟩

theorem tended_conflict (ho : s.Owned) (hitem : ItemOk s.db item) (hres : item.resultCheckpointId ≠ none)
    (hno : ∀ row r, s.db.ledger.find item.overrideId = some row →
      s.db.threads item.threadId = some r → r.row.status = .overriding →
      r.row.currentCheckpointId = item.sourceCheckpointId →
      r.row.stateVersion = item.expectedVersion → row.expectedNextNode = r.row.nextNode →
      (row.status = .applying ∨ row.status = .partiallyDone) → False) :
    (ReconcileState.conflict item.overrideId).Tended s.db := by
  obtain ⟨row, hrow, hs, -, hthread, hsource, hversion⟩ := item_row hitem hres
  refine ⟨row, hrow, hs, fun hh => ?_⟩
  obtain ⟨row', r, hrow', -, hr, hstatus, hv, hn, hs', hc⟩ :=
    ho.owner_marked hh (ho.not_marking_of_status hrow hs)
  rw [hrow] at hrow'
  cases hrow'
  rw [← hthread] at hr
  exact hno row r hrow hr hstatus (by rw [hsource, hc]) (by rw [hversion, hv]) hn hs'

/-- So can a reconciliation, if its promotions commit. -/
theorem step_reconcile_tended {st : ReconcileState} (hp : Provenance worker s) (ho : s.Owned)
    (hcommit : ∀ item result, s.reconciles i = .promoting item result → o.commits = true)
    (h : ReconcileState.step worker.runtime o s.db (s.reconciles i) = some (st, db)) : st.Tended db := by
  have htended := ho.reconciles i
  have hok := hp.reconciles i
  cases hst : s.reconciles i with
  | idle => rw [hst] at h; cases h
  | done result => rw [hst] at h; cases h
  | crashed => rw [hst] at h; cases h
  | fetching ov =>
    rw [hst] at h
    cases h
    unfold ReconcileState.fetch
    split
    · trivial
    · rename_i item hitem
      split
      · rename_i hs
        exact ho.attached ov item hitem hs
      · trivial
  | comparing item =>
    rw [hst] at h hok htended
    cases h
    unfold ReconcileState.compare
    split
    · rename_i hnone
      refine tended_conflict ho hok htended fun row r _ hr _ _ _ _ _ => ?_
      rw [hnone] at hr
      cases hr
    · rename_i thread hthread
      split
      · rename_i hdiffers
        refine tended_conflict ho hok htended fun row r _ hr hs hc hv _ _ => ?_
        rw [hthread] at hr
        cases hr
        rcases hdiffers with hd | hd | hd
        · exact hd hs
        · exact hd hc
        · exact hd hv
      · split
        · exact htended
        · exact tended_invalid hok htended _
  | loadingSource item a b =>
    rw [hst] at h htended
    cases h
    unfold ReconcileState.loadSource
    split
    · trivial
    · exact htended
  | loadingResult item source b =>
    rw [hst] at h hok htended
    cases h
    unfold ReconcileState.loadResult
    split
    · trivial
    · split
      · split
        · exact htended
        · exact tended_invalid hok.1 htended _
      · exact tended_invalid hok.1 htended _
  | promoting item result =>
    have hcommits := hcommit item result hst
    rw [hst] at h hok htended
    obtain ⟨hitem, hresult⟩ := hok
    obtain ⟨rfl, rfl⟩ := Prod.mk.inj (Option.some.inj h)
    split
    · rename_i herror
      refine tended_conflict ho hitem htended fun row r hrow hr hs hc hv hn hstatus => ?_
      -- At its boundary the promotion would have gone through.
      obtain ⟨hincomplete, row₁, hrow₁, hcont⟩ := hitem
      rw [hrow] at hrow₁
      cases hrow₁
      have hsource := (hcont.source (by rw [hincomplete]; decide)).2
      have hprom : row.promotable r.row result.checkpointId = true := by
        rw [RuntimeOverride.promotable_iff]
        exact ⟨hstatus, hcont.result _ hresult, hs, by rw [hc, hsource],
          by rw [hv, hcont.request.expectedVersion], hn.symm⟩
      rw [← hcont.request.threadId] at hr
      rw [hcommits, Db.promoteApplied_promotable hrow hr hprom] at herror
      cases herror
    · trivial
    · trivial
  | closing ov write =>
    rw [hst] at h
    obtain ⟨rfl, rfl⟩ := Prod.mk.inj (Option.some.inj h)
    split
    · trivial
    · trivial

/-! ### One step -/

variable {row' : RuntimeOverride}

theorem writes_underway (hw : st.Writes row row') (hs : row.status = .applying ∨ row.status = .partiallyDone)
    (hfinish : ∀ ctx status decision code locked,
      st ≠ .closing ctx (.finish status decision code) locked) (hpromote : row'.status ≠ .applied) :
    row'.status = .applying ∨ row'.status = .partiallyDone := by
  cases hw with
  | same => exact hs
  | marked hp => exact .inl rfl
  | attached hp => exact .inl hp
  | promoted hp => exact absurd rfl hpromote
  | published => exact hs
  | finished => exact absurd rfl (hfinish _ _ _ _ _)
  | setPartial =>
    unfold RuntimeOverride.markPartial
    split
    · exact hs
    · exact .inr rfl

theorem reconcile_writes_underway {st : ReconcileState} (hw : st.Writes row row')
    (hs : row.status = .applying ∨ row.status = .partiallyDone)
    (hfinish : ∀ ov status decision code, st ≠ .closing ov (.finish status decision code))
    (hpromote : row'.status ≠ .applied) : row'.status = .applying ∨ row'.status = .partiallyDone := by
  cases hw with
  | same => exact hs
  | promoted hp => exact absurd rfl hpromote
  | finished => exact absurd rfl (hfinish _ _ _ _)
  | setPartial =>
    unfold RuntimeOverride.markPartial
    split
    · exact hs
    · exact .inr rfl

theorem owner_continues (hrow' : s'.db.ledger.find ov = some row') (hcont : row.Continues row')
    (hr' : s'.db.threads t = some r) (ht : row.threadId = t) (hv : row.expectedVersion = r.row.stateVersion)
    (hn : row.expectedNextNode = r.row.nextNode) (hs : row.status = .applying ∨ row.status = .partiallyDone)
    (hc : row.sourceCheckpointId = r.row.currentCheckpointId)
    (hs' : row'.status = .applying ∨ row'.status = .partiallyDone) : s'.Owner t ov := by
  have hpending : row.status ≠ .pending := by
    rcases hs with hs | hs <;> rw [hs] <;> decide
  exact ⟨row', r, hrow', hcont.request.threadId.trans ht, hr',
    hcont.request.expectedVersion.trans hv, hcont.request.expectedNextNode.trans hn,
    Or.inl ⟨hs', (hcont.source hpending).2.trans hc⟩⟩

theorem newly_applied_stable {issued : PromoteCheckpoint → Prop} (h : Db.Change issued db db')
    (hrow : db.ledger.find ov = some row) (hne : row.status ≠ .applied)
    (hrow' : db'.ledger.find ov = some row') (happ : row'.status = .applied) :
    ∃ r, db'.threads row.threadId = some r ∧ r.row.status = .stable := by
  have hsame : db.ledger.find ov = some row' → ∃ r, db'.threads row.threadId = some r ∧
      r.row.status = .stable := by
    intro hfound
    rw [hrow] at hfound
    exact absurd (Option.some.inj hfound ▸ happ) hne
  cases h with
  | same => exact hsame hrow'
  | reserved _ hadd =>
    rw [Table.find_add hadd] at hrow'
    split at hrow'
    · rename_i hov
      have hfree := Table.find_none_of_add hadd
      rw [← hov, hrow] at hfree
      cases hfree
    · exact hsame hrow'
  | @rewrote row₁ row₂ hfound hcont hiff =>
    have hrow₂ : (db.ledger.replace row₂).find ov = some row' := hrow'
    rw [Table.find_replace] at hrow₂
    split at hrow₂
    · rename_i hov
      subst hov
      rw [hrow] at hfound hrow₂
      cases hfound
      cases hrow₂
      exact absurd (hiff.mp happ) hne
    · exact hsame hrow₂
  | @applied row₁ t c size now hfound ht hprom =>
    rw [Db.ledger_lower] at hrow'
    have hrow₂ : (db.ledger.replace (row₁.applyPromotion (t.row.stateVersion + 1) now)).find ov
        = some row' := hrow'
    rw [Table.find_replace] at hrow₂
    split at hrow₂
    · rename_i hov
      have hov' : ov = row₁.overrideId := hov
      subst hov'
      rw [hrow] at hfound
      cases hfound
      refine ⟨applyOverride t row c size, ?_, rfl⟩
      rw [Db.threads_lower, Db.threads_setThread]
      exact if_pos rfl
    · exact hsame hrow₂
  | steered _ _ => exact hsame hrow'
  | promoted _ _ _ _ => exact hsame hrow'
  | saved hs =>
    obtain ⟨-, -, rfl⟩ := Db.saveCheckpoint_eq_some.mp hs
    exact hsame hrow'
  | created _ => exact hsame hrow'

theorem held_not_applied {s s' : System} {a : Action} {t ov : String} (h : step worker s a = some s')
    (hh : Holds s'.db t ov) {row row' : RuntimeOverride} (hrow : s.db.ledger.find ov = some row)
    (ht : row.threadId = t) (hne : row.status ≠ .applied)
    (hrow' : s'.db.ledger.find ov = some row') : row'.status ≠ .applied := by
  intro happ
  obtain ⟨r, hr, hstable⟩ := newly_applied_stable (step_change h) hrow hne hrow' happ
  obtain ⟨-, r', hr', hs⟩ := hh
  rw [ht, hr'] at hr
  rw [← Option.some.inj hr, hs] at hstable
  cases hstable

theorem Raised.same (h : Raised db) (ht : db'.threads = db.threads)
    (hf : db'.fence = db.fence) : Raised db' := by
  intro t r hr hs
  rw [ht] at hr
  rw [hf]
  exact h t r hr hs

theorem Raised.putsUp (h : Raised db) (hup : PutsUp db db' t ov) : Raised db' := by
  obtain ⟨r₀, -, -, rfl⟩ := hup
  intro t' r hr hs
  show update db.fence t (some ov) t' ≠ none
  by_cases hne : t' = t
  · subst hne
    rw [update_self]
    exact Option.some_ne_none ov
  · rw [update_of_ne hne]
    rw [Db.threads_raise, Db.threads_setThread, if_neg hne] at hr
    exact h t' r hr hs

theorem Raised.takesDown (h : Raised db) (hdown : TakesDown db db' t ov) : Raised db' := by
  obtain ⟨r₁, r₂, -, -, hstable, hthreads, hfence⟩ := hdown
  intro t' r hr hs
  rw [hthreads, Db.threads_setThread] at hr
  split at hr
  · rw [← Option.some.inj hr, hstable] at hs
    cases hs
  · rename_i hne
    rw [hfence, Db.fence_lower, if_neg fun hd => hne hd.1]
    exact h t' r hr hs

theorem call_row (h : ApplyState.step config c o db locks st = some (st', db', locks'))
    (hrow' : db'.ledger.find ov = some row') :
    (∃ row, db.ledger.find ov = some row ∧ row.Continues row' ∧
        (row' = row ∨ (st.override = some ov ∧ st.Writes row row'))) ∨
      ∃ input command taskId, st = .reserving input command ∧ db.ledger.find ov = none ∧
        db.byKey command.idempotencyKey = none ∧
        row' = RuntimeOverride.reserve command taskId (command.requestedAt + intentTtl) := by
  obtain hsame | ⟨input, command, t, row, hst, hkey, -, hrow, hadd, -⟩ | ⟨ov₁, hov₁, hw⟩ :=
    ApplyState.step_rows h
  · rw [hsame] at hrow'
    exact .inl ⟨row', hrow', RuntimeOverride.Continues.refl row', Or.inl rfl⟩
  · rw [Table.find_add hadd] at hrow'
    split at hrow'
    · rename_i hov
      cases hrow'
      refine .inr ⟨input, command, t.row.taskId, hst, ?_, hkey, hrow⟩
      rw [hov]
      exact Table.find_none_of_add hadd
    · exact .inl ⟨row', hrow', RuntimeOverride.Continues.refl row', Or.inl rfl⟩
  · by_cases hne : ov = ov₁
    · subst hne
      obtain ⟨row, row₁, hrow, hrow₁, hwrites⟩ := hw.find_self
      rw [hrow₁] at hrow'
      cases hrow'
      obtain ⟨row₂, hrow₂, hcont⟩ := (ApplyState.step_evolves h).rows ov row hrow
      rw [hrow₁] at hrow₂
      cases hrow₂
      exact .inl ⟨row, hrow, hcont, Or.inr ⟨hov₁, hwrites⟩⟩
    · rw [hw.find_other hne] at hrow'
      exact .inl ⟨row', hrow', RuntimeOverride.Continues.refl row', Or.inl rfl⟩

theorem call_row_other (h : ApplyState.step config c o db locks st = some (st', db', locks'))
    (hrow : db.ledger.find ov = some row) (hov : st.override ≠ some ov) : db'.ledger.find ov = some row := by
  obtain ⟨row', hrow', -⟩ := (ApplyState.step_evolves h).rows ov row hrow
  obtain ⟨row₁, hrow₁, -, rfl | ⟨hov', -⟩⟩ | ⟨input, command, taskId, -, hnone, -⟩ := call_row h hrow'
  · rw [hrow] at hrow₁
    cases hrow₁
    exact hrow'
  · exact absurd hov' hov
  · rw [hrow] at hnone
    cases hnone

theorem Provenance.override_row (hp : Provenance worker s) (hov : (s.calls c).override = some ov) :
    ∃ row, s.db.ledger.find ov = some row := by
  have hok := hp.calls c
  generalize s.calls c = st at hok hov
  cases st with
  | idle | entered | reserving | done | crashed => cases hov
  | reading | claiming | marking | updating | undoing | attaching | promoting =>
    obtain ⟨⟨row, hrow, -⟩, -⟩ := hok
    cases hov
    exact ⟨row, hrow⟩
  | _ =>
    obtain ⟨row, hrow, -⟩ := hok
    cases hov
    exact ⟨row, hrow⟩

theorem reserved_alone {input : ApplyInput} {command : RuntimeOverrideCommand} {stored : RuntimeOverride}
    {replayed : Bool} (hp : Provenance worker s) (hok : s.Tended (.advance c o))
    (hst : s.calls c = .reserving input command)
    (hb : s.db.beginOrReplay command (command.requestedAt + intentTtl) = .ok (stored, replayed, db))
    (hpending : replayed = false ∨ stored.status = .pending) :
    db.ledger.find stored.overrideId = some stored ∧ stored.status = .pending ∧
      ∀ c', (s.calls c').override ≠ some stored.overrideId := by
  obtain ⟨rfl, rfl, hkey, -⟩ | ⟨-, -, t, ledger, -, rfl, hadd, rfl⟩ := Db.beginOrReplay_ok hb
  · have hs : stored.status = .pending := hpending.resolve_left (by decide)
    exact ⟨(Db.byKey_eq_some hkey).1, hs, (hok input command hst).2 stored hkey hs⟩
  · refine ⟨?_, rfl, fun c' hc' => ?_⟩
    · show ledger.find _ = _
      rw [Table.find_add hadd, if_pos rfl]
    · obtain ⟨row, hrow⟩ := hp.override_row hc'
      rw [Table.find_none_of_add hadd] at hrow
      cases hrow

/-- Before it is marked, an override is pending and in one call only. -/
theorem advance_prelude (hp : Provenance worker s) (ho : s.Owned) (hok : s.Tended (.advance c o))
    (h : ApplyState.step worker.runtime c o s.db s.locks (s.calls c) = some (st, db, locks)) (c' : ℕ)
    (ov : String) (hov : (update s.calls c st c').override = some ov)
    (hpre : (update s.calls c st c').prelude = true) :
    (∃ row, db.ledger.find ov = some row ∧ row.status = .pending) ∧
      ∀ c'', (update s.calls c st c'').override = some ov → c'' = c' := by
  -- What `ov` can be when the moving call works on it afterwards.
  have hmoved : st.override = some ov → (s.calls c).override = some ov ∨
      ∃ input command stored replayed, s.calls c = .reserving input command ∧
        s.db.beginOrReplay command (command.requestedAt + intentTtl) = .ok (stored, replayed, db) ∧
        stored.overrideId = ov ∧ st = ApplyState.resumeFrom
          ⟨input.threadId, input.request, command, stored.overrideId⟩ stored replayed :=
    ApplyState.step_override h
  by_cases hc : c' = c
  · subst hc
    rw [update_self] at hov hpre
    obtain hold | ⟨input, command, stored, replayed, hst, hb, rfl, rfl⟩ := hmoved hov
    · obtain ⟨hpre', hledger, -⟩ | ⟨input, command, hst⟩ := ApplyState.step_prelude h hpre
      · obtain ⟨⟨row, hrow, hs⟩, halone⟩ := ho.prelude c' ov hold hpre'
        refine ⟨⟨row, by rw [hledger]; exact hrow, hs⟩, fun c'' hc'' => ?_⟩
        by_cases hne : c'' = c'
        · exact hne
        · rw [update_of_ne hne] at hc''
          exact halone c'' hc''
      · rw [hst] at hold
        cases hold
    · have hpending : replayed = false ∨ stored.status = .pending := by
        obtain ⟨hnew, -⟩ | ⟨-, -, hr⟩ | ⟨-, -, hr⟩ | hr := ApplyState.resumeFrom_cases
          ⟨input.threadId, input.request, command, stored.overrideId⟩ stored replayed
        · exact hnew
        · rw [hr] at hpre
          cases hpre
        · rw [hr] at hpre
          cases hpre
        · rw [hr] at hpre
          cases hpre
      obtain ⟨hfound, hs, halone⟩ := reserved_alone hp hok hst hb hpending
      refine ⟨⟨stored, hfound, hs⟩, fun c'' hc'' => ?_⟩
      by_cases hne : c'' = c'
      · exact hne
      · rw [update_of_ne hne] at hc''
        exact absurd hc'' (halone c'')
  · rw [update_of_ne hc] at hov hpre
    obtain ⟨⟨row, hrow, hs⟩, halone⟩ := ho.prelude c' ov hov hpre
    have hother : (s.calls c).override ≠ some ov := fun hcov => hc (halone c hcov).symm
    refine ⟨⟨row, call_row_other h hrow hother, hs⟩, fun c'' hc'' => ?_⟩
    by_cases hne : c'' = c
    · subst hne
      rw [update_self] at hc''
      obtain hold | ⟨input, command, stored, replayed, hst, hb, rfl, -⟩ := hmoved hc''
      · exact halone _ hold
      · -- The reservation found the row of a call that is still working on it.
        obtain ⟨rfl, rfl, hkey, -⟩ | ⟨-, -, t, ledger, -, rfl, hadd, -⟩ := Db.beginOrReplay_ok hb
        · obtain ⟨hfound, -⟩ := Db.byKey_eq_some hkey
          rw [hrow] at hfound
          cases hfound
          exact absurd hov ((hok input command hst).2 row hkey hs c')
        · rw [Table.find_none_of_add hadd] at hrow
          cases hrow
    · rw [update_of_ne hne] at hc''
      exact halone c'' hc''

theorem finish_not_incomplete (row : RuntimeOverride) (status : FinalStatus)
    (decision : RuntimeOverrideDecision) (code : String) (now : ℕ) :
    (row.finish status decision code now).status ≠ .partiallyDone := by
  unfold RuntimeOverride.finish
  split
  · rename_i happ
    rw [happ]
    decide
  · cases status <;> simp [FinalStatus.status]

theorem writes_partial (hw : st.Writes row row')
    (hclosing : ∀ ctx code locked, st = .closing ctx (.markPartial code) locked →
      row.resultCheckpointId ≠ none)
    (hold : row.status = .partiallyDone → row.resultCheckpointId ≠ none)
    (hs : row'.status = .partiallyDone) : row'.resultCheckpointId ≠ none := by
  cases hw with
  | same => exact hold hs
  | marked hp => cases hs
  | attached hp => exact Option.some_ne_none _
  | promoted hp => cases hs
  | published => exact hold hs
  | finished => exact absurd hs (finish_not_incomplete _ _ _ _ _)
  | setPartial =>
    unfold RuntimeOverride.markPartial
    split
    · exact hclosing _ _ _ rfl
    · exact hclosing _ _ _ rfl

theorem reconcile_writes_partial {st : ReconcileState} (hw : st.Writes row row')
    (hclosing : ∀ ov code, st = .closing ov (.markPartial code) → row.resultCheckpointId ≠ none)
    (hold : row.status = .partiallyDone → row.resultCheckpointId ≠ none)
    (hs : row'.status = .partiallyDone) : row'.resultCheckpointId ≠ none := by
  cases hw with
  | same => exact hold hs
  | promoted hp => cases hs
  | finished => exact absurd hs (finish_not_incomplete _ _ _ _ _)
  | setPartial =>
    unfold RuntimeOverride.markPartial
    split
    · exact hclosing _ _ rfl
    · exact hclosing _ _ rfl

theorem mark_owner (h : step worker s (.advance c o) = some s') (hst : s.calls c = .marking ctx thread source)
    (hrow : s.db.ledger.find ctx.overrideId = some row) (hs : row.status = .pending) (ht : row.threadId = t)
    (hr : s'.db.threads t = some r) (hv : row.expectedVersion = r.row.stateVersion)
    (hn : row.expectedNextNode = r.row.nextNode)
    (hc : r.row.currentCheckpointId = some source.checkpointId) : s'.Owner t ctx.overrideId := by
  let row₁ : RuntimeOverride :=
    { row with
      status := .applying
      decision := some .allowed
      beforeStateVersion := some thread.stateVersion
      sourceCheckpointId := some source.checkpointId
      startedAt := some o.now }
  have hmark : ApplyState.mark ctx thread source o s.db =
      (.updating ctx thread source, s.db.setRow row₁) := ApplyState.mark_pending hrow hs
  have hdb : s'.db = s.db.setRow row₁ := by
    obtain ⟨⟨st, db, locks⟩, hstep, rfl⟩ := Option.map_eq_some_iff.mp h
    rw [hst] at hstep
    have hstep' : some (ApplyState.step.keep s.locks
        (ApplyState.mark ctx thread source o s.db)) = some (st, db, locks) := hstep
    rw [hmark] at hstep'
    exact (congrArg (fun x => x.2.1) (Option.some.inj hstep')).symm
  refine ⟨row₁, r, ?_, ht, hr, hv, hn, Or.inl ⟨Or.inl rfl, hc.symm⟩⟩
  have hid := Table.find_key hrow
  rw [← hid] at hrow ⊢
  rw [hdb]
  exact Table.find_replace_self hrow

theorem claim_owner (hp : Provenance worker s) (ho : s.Owned) (h : step worker s (.advance c o) = some s')
    (hst : s.calls c = .claiming ctx thread source)
    (hst' : s'.calls c = .marking ctx thread source) : s'.Owner ctx.threadId ctx.overrideId := by
  have hctx := hp.calls c
  rw [hst] at hctx
  obtain ⟨⟨row, hrow, hreq⟩, hboundary⟩ := hctx
  obtain ⟨⟨st, db, locks⟩, hstep, hs'⟩ := Option.map_eq_some_iff.mp h
  have hdb : s'.db = db := by rw [← hs']
  have hcall : s'.calls c = st := by
    rw [← hs']
    exact update_self _ _ _
  rw [hst] at hstep
  have hstep' : some (ApplyState.step.keep s.locks (ApplyState.claim ctx thread source s.db)) =
      some (st, db, locks) := hstep
  obtain ⟨w, -, hc⟩ | ⟨row', db₁, hclaim, hc⟩ := ApplyState.claim_cases ctx thread source s.db
  · rw [hc] at hstep'
    have hclosing : ApplyState.closing ctx w true = st :=
      congrArg (fun x => x.1) (Option.some.inj hstep')
    rw [hcall, ← hclosing] at hst'
    cases hst'
  · rw [hc] at hstep'
    have hdb₁ : db₁ = db := congrArg (fun x => x.2.1) (Option.some.inj hstep')
    obtain ⟨r, hr, hb, hclaimed⟩ := Db.claimOverrideBoundary_ok hclaim
    obtain ⟨-, hpointer, hversion, hnext⟩ := ThreadRecord.atBoundary_iff.mp hb
    have hnode : thread.nextNode = some "capacity" := (Prod.mk.inj hboundary.allowed.boundary).2
    have hnamed : ctx.command.expectedNextNode ≠ none := by
      rw [← hreq.expectedNextNode]
      exact ho.named _ row hrow
    refine ⟨row, r.claimed .overriding none, ?_, hreq.threadId, ?_, ?_, ?_,
      Or.inr ⟨c, ctx, thread, source, hst', rfl, hpointer⟩⟩
    · rw [hdb, ← hdb₁, hclaimed]
      exact hrow
    · rw [hdb, ← hdb₁, hclaimed, Db.threads_raise, Db.threads_setThread]
      exact if_pos rfl
    · show row.expectedVersion = r.row.stateVersion
      rw [hreq.expectedVersion, hversion, hboundary.version]
    · show row.expectedNextNode = r.row.nextNode
      rw [hreq.expectedNextNode, hnext, hboundary.allowed.nextNode.resolve_left hnamed, hnode]
      rfl

/-- A fence held after the step of a call has an owner. -/
theorem advance_held (hp : Provenance worker s) (ho : s.Owned) (h : step worker s (.advance c o) = some s')
    (t ov : String) (hh : Holds s'.db t ov) : s'.Owner t ov := by
  obtain ⟨⟨st, db, locks⟩, hstep, hs'⟩ := Option.map_eq_some_iff.mp h
  have hdb : s'.db = db := by rw [← hs']
  have hcalls : s'.calls = update s.calls c st := by rw [← hs']
  rw [← hdb] at hstep
  obtain ⟨hold, hsame⟩ | ⟨ctx, thread, source, hst, hst', rfl, rfl, -⟩ :=
    ApplyState.step_holds (hp.calls c) hstep hh
  · obtain ⟨row, r, hrow, ht, hr, hv, hn, hcase⟩ := ho.held t ov hold
    obtain ⟨row', hrow', hcont⟩ := (ApplyState.step_evolves hstep).rows ov row hrow
    rw [← hsame] at hr
    obtain ⟨hs, hc⟩ | ⟨c₁, ctx, thread, source, hst₁, rfl, hc⟩ := hcase
    · -- The row is marked: the step may write it, but neither finishes nor promotes it.
      refine owner_continues hrow' hcont hr ht hv hn hs hc ?_
      have hne : row.status ≠ .applied := by
        rcases hs with hs | hs <;> rw [hs] <;> decide
      have happ : row'.status ≠ .applied := held_not_applied h hh hrow ht hne hrow'
      obtain ⟨row₁, hrow₁, -, rfl | ⟨hov, hw⟩⟩ | ⟨input, command, taskId, -, hnone, -⟩ := call_row hstep hrow'
      · rw [hrow] at hrow₁
        cases hrow₁
        exact hs
      · rw [hrow] at hrow₁
        cases hrow₁
        refine writes_underway hw hs (fun ctx status decision code locked hclosing => ?_) happ
        have hctx := hp.calls c
        have hno : (s.calls c).Tended s.db := ho.calls c
        rw [hclosing] at hno hov hctx
        obtain ⟨row₂, hrow₂, hreq⟩ := hctx
        cases hov
        rw [hrow] at hrow₂
        cases hrow₂
        rw [← ht, hreq.threadId] at hold
        exact hno hold
      · rw [hrow] at hnone
        cases hnone
    · by_cases hc₁ : c₁ = c
      · -- The call marks its row: it was `PENDING`, so the mark goes through.
        subst hc₁
        obtain ⟨⟨row₀, hrow₀, hs⟩, -⟩ :=
          ho.prelude c₁ ctx.overrideId (by rw [hst₁]; rfl) (by rw [hst₁]; rfl)
        rw [hrow] at hrow₀
        cases hrow₀
        exact mark_owner h hst₁ hrow hs ht hr hv hn hc
      · refine ⟨row', r, hrow', hcont.request.threadId.trans ht, hr,
          hcont.request.expectedVersion.trans hv, hcont.request.expectedNextNode.trans hn,
          Or.inr ⟨c₁, ctx, thread, source, ?_, rfl, hc⟩⟩
        rw [hcalls, update_of_ne hc₁]
        exact hst₁
  · refine claim_owner hp ho h hst ?_
    rw [hcalls, update_self]
    exact hst'

theorem Owned.reconcile_row (hp : Provenance worker s) (ho : s.Owned)
    (hov : (s.reconciles i).override = some ov) :
    ∃ row, s.db.ledger.find ov = some row ∧ row.status ≠ .pending := by
  have hok := hp.reconciles i
  have htended := ho.reconciles i
  have hitem : ∀ item : RuntimeOverride, ItemOk s.db item → item.resultCheckpointId ≠ none →
      ∃ row, s.db.ledger.find item.overrideId = some row ∧ row.status ≠ .pending := by
    intro item hitem hres
    obtain ⟨row, hrow, hs, -⟩ := item_row hitem hres
    exact ⟨row, hrow, hs⟩
  revert hok htended hov
  cases s.reconciles i with
  | idle => intro hov; cases hov
  | fetching ov => intro hov; cases hov
  | done result => intro hov; cases hov
  | crashed => intro hov; cases hov
  | comparing item => intro hov hok ht; cases hov; exact hitem item hok ht
  | loadingSource item a b => intro hov hok ht; cases hov; exact hitem item hok.1 ht
  | loadingResult item a b => intro hov hok ht; cases hov; exact hitem item hok.1 ht
  | promoting item result => intro hov hok ht; cases hov; exact hitem item hok.1 ht
  | closing ov w =>
    intro hov _ ht
    cases hov
    cases w with
    | finish st d code =>
      obtain ⟨row, hrow, hs, -⟩ := ht
      exact ⟨row, hrow, hs⟩
    | markPartial code =>
      obtain ⟨row, hrow, hs, -⟩ := ht
      exact ⟨row, hrow, hs⟩

/-- One step of a call keeps every fence owned. -/
theorem advance_owned (hp : Provenance worker s) (ho : s.Owned) (hok : s.Tended (.advance c o))
    (h : step worker s (.advance c o) = some s') : s'.Owned := by
  have hheld := advance_held hp ho h
  obtain ⟨⟨st, db, locks⟩, hstep, rfl⟩ := Option.map_eq_some_iff.mp h
  have he := ApplyState.step_evolves hstep
  -- A new hold is a claim, and the claiming call is alone on its `PENDING` row.
  have hnew : ∀ t ov, Holds db t ov → Holds s.db t ov ∨
      ((s.calls c).override = some ov ∧ (s.calls c).prelude = true) := by
    intro t ov hh
    obtain ⟨hold, -⟩ | ⟨ctx, thread, source, hst, -, -, rfl, -⟩ :=
      ApplyState.step_holds (hp.calls c) hstep hh
    · exact .inl hold
    · rw [hst]
      exact .inr ⟨rfl, rfl⟩
  refine ⟨?_, ?_, ?_, advance_prelude hp ho hok hstep, ?_, ?_, hheld⟩
  · obtain ⟨ht, hf⟩ | ⟨ctx, thread, source, -, -, hup⟩ | ⟨t, ov, -, hdown⟩ :=
      ApplyState.step_fence (hp.calls c) hstep
    · exact ho.raised.same ht hf
    · exact ho.raised.putsUp hup
    · exact ho.raised.takesDown hdown
  · intro ov row' hrow'
    obtain ⟨row, hrow, hcont, -⟩ | ⟨input, command, taskId, hst, -, -, rfl⟩ :=
      call_row hstep hrow'
    · rw [hcont.request.expectedNextNode]
      exact ho.named ov row hrow
    · exact (hok input command hst).1
  · intro ov row' hrow' hs
    obtain ⟨row, hrow, -, rfl | ⟨hov, hw⟩⟩ | ⟨input, command, taskId, -, -, -, rfl⟩ :=
      call_row hstep hrow'
    · exact ho.attached ov _ hrow hs
    · refine writes_partial hw (fun ctx code locked hst => ?_) (ho.attached ov row hrow) hs
      have htended := ho.calls c
      rw [hst] at htended hov
      cases hov
      obtain ⟨row₁, hrow₁, hres⟩ := htended
      rw [hrow] at hrow₁
      cases hrow₁
      exact hres
    · cases hs
  · intro c'
    by_cases hc : c' = c
    · subst hc
      show (update s.calls c' st c').Tended db
      rw [update_self]
      exact step_call_tended hp ho hstep
    · show (update s.calls c st c').Tended db
      rw [update_of_ne hc]
      refine (ho.calls c').mono he fun t ov hov hh => ?_
      obtain hold | ⟨hcov, hpre⟩ := hnew t ov hh
      · exact hold
      · exact absurd ((ho.prelude c ov hcov hpre).2 c' hov) hc
  · intro i
    refine (ho.reconciles i).mono he fun t ov hov hh => ?_
    obtain hold | ⟨hcov, hpre⟩ := hnew t ov hh
    · exact hold
    · obtain ⟨⟨row, hrow, hs⟩, -⟩ := ho.prelude c ov hcov hpre
      obtain ⟨row', hrow', hs'⟩ := ho.reconcile_row hp hov
      rw [hrow] at hrow'
      cases hrow'
      exact absurd hs hs'

theorem reconcile_row {st : ReconcileState}
    (h : ReconcileState.step worker.runtime o s.db (s.reconciles i) = some (st, db))
    (hrow' : db.ledger.find ov = some row') :
    ∃ row, s.db.ledger.find ov = some row ∧ row.Continues row' ∧
      (row' = row ∨ ((s.reconciles i).override = some ov ∧ (s.reconciles i).Writes row row')) := by
  obtain hsame | ⟨ov₁, hov₁, hw⟩ := ReconcileState.step_rows h
  · rw [hsame] at hrow'
    exact ⟨row', hrow', RuntimeOverride.Continues.refl row', Or.inl rfl⟩
  · by_cases hne : ov = ov₁
    · subst hne
      obtain ⟨row, row₁, hrow, hrow₁, hwrites⟩ := hw.find_self
      rw [hrow₁] at hrow'
      cases hrow'
      have hchange : Db.Change (fun _ => False) s.db db := ReconcileState.step_change h
      obtain ⟨row₂, hrow₂, hcont⟩ := hchange.evolves.rows ov row hrow
      rw [hrow₁] at hrow₂
      cases hrow₂
      exact ⟨row, hrow, hcont, Or.inr ⟨hov₁, hwrites⟩⟩
    · rw [hw.find_other hne] at hrow'
      exact ⟨row', hrow', RuntimeOverride.Continues.refl row', Or.inl rfl⟩

/-- A reconciliation leaves every fence with an owner. -/
theorem reconcile_owned (hp : Provenance worker s) (ho : s.Owned) (hok : s.Tended (.advanceReconcile i o))
    (h : step worker s (.advanceReconcile i o) = some s') : s'.Owned := by
  have happlied := @held_not_applied worker s s' (.advanceReconcile i o)
  obtain ⟨⟨st, db⟩, hstep, rfl⟩ := Option.map_eq_some_iff.mp h
  have hchange : Db.Change (fun _ => False) s.db db := ReconcileState.step_change hstep
  have he := hchange.evolves
  have hnew : ∀ t ov, Holds db t ov → Holds s.db t ov :=
    fun t ov hh => (ReconcileState.step_holds (hp.reconciles i) hstep hh).1
  refine ⟨?_, ?_, ?_, ?_, ?_, ?_, ?_⟩
  · obtain ⟨ht, hf⟩ | ⟨t, ov, -, hdown⟩ := ReconcileState.step_fence (hp.reconciles i) hstep
    · exact ho.raised.same ht hf
    · exact ho.raised.takesDown hdown
  · intro ov row' hrow'
    obtain ⟨row, hrow, hcont, -⟩ := reconcile_row hstep hrow'
    rw [hcont.request.expectedNextNode]
    exact ho.named ov row hrow
  · intro ov row' hrow' hs
    obtain ⟨row, hrow, -, rfl | ⟨hov, hw⟩⟩ := reconcile_row hstep hrow'
    · exact ho.attached ov _ hrow hs
    · refine reconcile_writes_partial hw (fun ov₁ code hst => ?_) (ho.attached ov row hrow) hs
      have htended := ho.reconciles i
      rw [hst] at htended hov
      cases hov
      obtain ⟨row₁, hrow₁, -, hres⟩ := htended
      rw [hrow] at hrow₁
      cases hrow₁
      exact hres
  · intro c ov hov hpre
    obtain ⟨⟨row, hrow, hs⟩, halone⟩ := ho.prelude c ov hov hpre
    obtain ⟨row', hrow', -⟩ := he.rows ov row hrow
    refine ⟨⟨row', hrow', ?_⟩, halone⟩
    obtain ⟨row₁, hrow₁, -, rfl | ⟨hov', -⟩⟩ := reconcile_row hstep hrow'
    · rw [hrow] at hrow₁
      cases hrow₁
      exact hs
    · obtain ⟨row₂, hrow₂, hs₂⟩ := ho.reconcile_row hp hov'
      rw [hrow] at hrow₂
      cases hrow₂
      exact absurd hs hs₂
  · intro c
    exact (ho.calls c).mono he fun t ov _ hh => hnew t ov hh
  · intro i'
    by_cases hi : i' = i
    · subst hi
      show (update s.reconciles i' st i').Tended db
      rw [update_self]
      exact step_reconcile_tended hp ho hok hstep
    · show (update s.reconciles i st i').Tended db
      rw [update_of_ne hi]
      exact (ho.reconciles i').mono he fun t ov _ hh => hnew t ov hh
  · intro t ov hh
    obtain ⟨hold, hsame⟩ := ReconcileState.step_holds (hp.reconciles i) hstep hh
    obtain ⟨row, r, hrow, ht, hr, hv, hn, hcase⟩ := ho.held t ov hold
    obtain ⟨row', hrow', hcont⟩ := he.rows ov row hrow
    rw [← hsame] at hr
    obtain ⟨hs, hc⟩ | ⟨c, ctx, thread, source, hst, rfl, hc⟩ := hcase
    · refine owner_continues hrow' hcont hr ht hv hn hs hc ?_
      have hne : row.status ≠ .applied := by
        rcases hs with hs | hs <;> rw [hs] <;> decide
      obtain ⟨row₁, hrow₁, -, rfl | ⟨hov, hw⟩⟩ := reconcile_row hstep hrow'
      · rw [hrow] at hrow₁
        cases hrow₁
        exact hs
      · rw [hrow] at hrow₁
        cases hrow₁
        refine reconcile_writes_underway hw hs (fun ov₁ status decision code hclosing => ?_)
          (happlied h hh hrow ht hne hrow')
        have hno : (s.reconciles i).Tended s.db := ho.reconciles i
        rw [hclosing] at hno hov
        cases hov
        obtain ⟨row₂, hrow₂, -, hno⟩ := hno
        rw [hrow] at hrow₂
        cases hrow₂
        rw [ht] at hno
        exact hno hold
    · exact ⟨row', r, hrow', hcont.request.threadId.trans ht, hr,
        hcont.request.expectedVersion.trans hv, hcont.request.expectedNextNode.trans hn,
        Or.inr ⟨c, ctx, thread, source, hst, rfl, hc⟩⟩

theorem Owned.retire (ho : s.Owned) (hov : st.override = none) (htended : st.Tended s.db)
    (hmark : ∀ ctx thread source, s.calls c ≠ .marking ctx thread source) :
    ({ s with calls := update s.calls c st } : System).Owned := by
  have hcases : ∀ c' ov, (update s.calls c st c').override = some ov →
      (s.calls c').override = some ov ∧ update s.calls c st c' = s.calls c' := by
    intro c' ov hc'
    by_cases hne : c' = c
    · subst hne
      rw [update_self, hov] at hc'
      cases hc'
    · rw [update_of_ne hne] at hc' ⊢
      exact ⟨hc', rfl⟩
  refine ⟨ho.raised, ho.named, ho.attached, ?_, ?_, ho.reconciles, ?_⟩
  · intro c' ov hc' hpre
    obtain ⟨hc₁, hsame⟩ := hcases c' ov hc'
    have hpre' : (update s.calls c st c').prelude = true := hpre
    rw [hsame] at hpre'
    obtain ⟨hrow, halone⟩ := ho.prelude c' ov hc₁ hpre'
    exact ⟨hrow, fun c'' hc'' => halone c'' (hcases c'' ov hc'').1⟩
  · intro c'
    show (update s.calls c st c').Tended s.db
    by_cases hne : c' = c
    · subst hne
      rw [update_self]
      exact htended
    · rw [update_of_ne hne]
      exact ho.calls c'
  · intro t ov hh
    obtain ⟨row, r, hrow, ht, hr, hv, hn, hcase⟩ := ho.held t ov hh
    refine ⟨row, r, hrow, ht, hr, hv, hn, ?_⟩
    obtain hs | ⟨c₁, ctx, thread, source, hst, hov₁, hc₁⟩ := hcase
    · exact .inl hs
    · refine .inr ⟨c₁, ctx, thread, source, ?_, hov₁, hc₁⟩
      show update s.calls c st c₁ = _
      rw [update_of_ne, hst]
      rintro rfl
      exact hmark ctx thread source hst

theorem Owned.retireReconcile {st : ReconcileState} (ho : s.Owned) (htended : st.Tended s.db) :
    ({ s with reconciles := update s.reconciles i st } : System).Owned := by
  refine ⟨ho.raised, ho.named, ho.attached, ho.prelude, ho.calls, ?_, ho.held⟩
  intro i'
  show (update s.reconciles i st i').Tended s.db
  by_cases hne : i' = i
  · subst hne
    rw [update_self]
    exact htended
  · rw [update_of_ne hne]
    exact ho.reconciles i'

/-- A tended step leaves every fence with an owner. -/
theorem step_owned {a : Action} (hp : Provenance worker s) (ho : s.Owned) (hok : s.Tended a)
    (h : step worker s a = some s') : s'.Owned := by
  cases a with
  | beginApply c input =>
    simp only [step] at h
    split at h
    · rename_i hidle
      cases h
      exact ho.retire rfl trivial (by rw [hidle]; simp)
    · cases h
  | advance c o => exact advance_owned hp ho hok h
  | crash c =>
    simp only [step] at h
    split at h
    · cases h
      exact ho.retire rfl trivial hok
    · cases h
  | expireLock t =>
    cases h
    exact ⟨ho.raised, ho.named, ho.attached, ho.prelude, ho.calls, ho.reconciles, ho.held⟩
  | beginReconcile i ov =>
    simp only [step] at h
    split at h
    · cases h
      exact ho.retireReconcile trivial
    · cases h
  | advanceReconcile i o => exact reconcile_owned hp ho hok h
  | crashReconcile i =>
    simp only [step] at h
    split at h
    · cases h
      exact ho.retireReconcile trivial
    · cases h
  | _ => cases hok

theorem Initial.owned (h : Initial s) : s.Owned := by
  refine ⟨?_, ?_, ?_, ?_, ?_, ?_, ?_⟩
  · intro t r hr hs
    exact absurd hs (h.unfenced t r hr)
  · intro ov row hrow
    rw [h.find] at hrow
    cases hrow
  · intro ov row hrow
    rw [h.find] at hrow
    cases hrow
  · intro c ov hov
    rw [h.calls] at hov
    cases hov
  · intro c
    rw [h.calls]
    trivial
  · intro i
    rw [h.reconciles]
    trivial
  · rintro t ov ⟨hf, -⟩
    rw [h.fence] at hf
    cases hf

theorem exec_owned {s₀ : System} {run : List Action} (h₀ : Initial s₀)
    (hok : Meets (step worker) Tended s₀ run) (hrun : exec (step worker) s₀ run = some s) :
    Provenance worker s ∧ s.Owned :=
  exec_invariant (I := fun s => Provenance worker s ∧ s.Owned)
    (fun _ _ _ hs hr hstep => ⟨step_provenance hs.1 hstep, step_owned hs.1 hs.2 hr hstep⟩) hok hrun
    ⟨h₀.provenance, h₀.owned⟩

end System

end CountyFlow.Override
