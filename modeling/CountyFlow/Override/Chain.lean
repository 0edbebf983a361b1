import CountyFlow.Override.Provenance

/-!
# One canonical chain

The runner, the checkpoint reconciler and override promotions all move one pointer, each after checks
on a snapshot that may be old.  Only the comparison of checkpoint and version inside the promoting
transaction ties the check to the write.  This file shows that this is enough.
-/

namespace CountyFlow.Override

open CountyFlow.Lib CountyFlow.Core CountyFlow.Runtime

variable {s s₀ : System} {run : List Action}

namespace System

/-- Where runs begin: threads of any kind but none fenced, no override yet, nothing running. -/
structure Initial (s : System) : Prop where
  store : StoreOk s.db.store
  threadIds : ∀ t r, s.db.threads t = some r → r.row.threadId = t
  unfenced : ∀ t r, s.db.threads t = some r → r.row.status ≠ .overriding
  ledger : s.db.ledger.rows = []
  fence : ∀ t, s.db.fence t = none
  calls : ∀ i, s.calls i = .idle
  reconciles : ∀ r, s.reconciles r = .idle
  workers : ∀ w, s.workers w = .idle

/-- An initial state whose threads have just been created. -/
structure Genesis (s : System) : Prop extends Initial s where
  newborn : ∀ t r, s.db.threads t = some r → ∃ taskId, r = ThreadRecord.create taskId t

variable {worker : WorkerConfig}

theorem Initial.find (h : Initial s) (ov : String) : s.db.ledger.find ov = none := by
  unfold Table.find
  rw [h.ledger]
  rfl

theorem Initial.provenance (h : Initial s) : Provenance worker s := by
  have hnames : ∀ ov c, ¬ s.Names ov c := by
    rintro ov c (⟨row, hrow, -⟩ | ⟨i, hi⟩)
    · rw [h.find] at hrow
      cases hrow
    · rw [h.calls] at hi
      cases hi
  refine ⟨h.store, h.threadIds, ?_, ?_, ?_, ?_, ?_, ?_⟩
  · intro ov row hrow
    rw [h.find] at hrow
    cases hrow
  · intro i
    rw [h.calls]
    trivial
  · intro r
    rw [h.reconciles]
    trivial
  · intro w
    rw [h.workers]
    trivial
  · intro ov c c' hn
    exact absurd hn (hnames ov c)
  · intro ov c hn
    exact absurd hn (hnames ov c)

theorem exec_provenance (h₀ : Provenance worker s₀)
    (hrun : exec (step worker) s₀ run = some s) : Provenance worker s :=
  exec_preserves (fun _ _ _ hp hs => step_provenance hp hs) hrun h₀

theorem exec_evolves (hrun : exec (step worker) s₀ run = some s) : s₀.db.Evolves s.db :=
  exec_preserves (I := fun s => s₀.db.Evolves s.db)
    (fun _ _ _ he hs => he.trans (step_evolves hs)) hrun (Db.Evolves.refl _)

theorem exec_balanced (h₀ : Genesis s₀) (hrun : exec (step worker) s₀ run = some s) : s.db.Balanced := by
  have hinit : s₀.db.Linked ∧ s₀.db.Balanced := by
    constructor
    · intro row hmem
      rw [h₀.ledger] at hmem
      cases hmem
    · intro t r hr
      obtain ⟨taskId, rfl⟩ := h₀.newborn t r hr
      show 0 = 0 + List.countP _ _
      rw [h₀.ledger]
      rfl
  exact (exec_preserves (I := fun s => s.db.Linked ∧ s.db.Balanced)
    (fun s a s' hs hstep =>
      ⟨(step_change hstep).linked hs.1, (step_change hstep).balanced hs.2 hs.1⟩) hrun hinit).2

end System

/-! ### The pointer -/

/-- The thread `r'` stands where `r` stood, or one version on at a successor. -/
def Follows (store : CheckpointStore) (t : String) (r r' : ThreadRecord) : Prop :=
  (r'.row.currentCheckpointId = r.row.currentCheckpointId ∧
      r'.row.stateVersion = r.row.stateVersion) ∨
    (r'.row.stateVersion = r.row.stateVersion + 1 ∧
      ∃ c, r'.row.currentCheckpointId = some c ∧ Succeeds store t c r.row.currentCheckpointId)

variable {config : RuntimeConfig} {row : RuntimeOverride}

theorem RowOk.result_descends {store : CheckpointStore} {r : String} (h : RowOk config store row)
    (hr : row.resultCheckpointId = some r) :
    ∃ c, row.sourceCheckpointId = some c ∧ ParentIn store row.threadId r c := by
  obtain ⟨source, result, hsrc, -, hres, hvalid⟩ := h.result r hr
  have hparent : result.parentCheckpointId = some source.checkpointId := by
    unfold candidateValid at hvalid
    rw [decide_eq_true_eq] at hvalid
    exact hvalid.2.2.2.1
  exact ⟨source.checkpointId, hsrc, result, hres, hparent⟩

variable {r r' : ThreadRecord} {issued : PromoteCheckpoint → Prop} {db db' : Db} {t : String}

theorem Db.Change.follows (h : Db.Change issued db db')
    (hissued : ∀ command, issued command → Certified db.store command) (hrows : RowsOk config db)
    (hr : db.threads t = some r) (hr' : db'.threads t = some r') : Follows db'.store t r r' := by
  have hsame : db.threads t = some r' → Follows db'.store t r r' := by
    intro ht
    rw [hr] at ht
    cases ht
    exact .inl ⟨rfl, rfl⟩
  cases h with
  | same => exact hsame hr'
  | reserved _ _ => exact hsame hr'
  | rewrote _ _ _ => exact hsame hr'
  | @steered t₀ r₀ r₀' fence hr₀ hsteer =>
    have hr₁ : (db.setThread t₀ r₀').threads t = some r' := hr'
    rw [threads_setThread] at hr₁
    split at hr₁
    · rename_i ht
      subst ht
      rw [hr] at hr₀
      cases hr₀
      cases hr₁
      exact .inl ⟨hsteer.pointer, hsteer.version⟩
    · exact hsame hr₁
  | @promoted r₀ command hr₀ hc _ hi =>
    rw [threads_setThread] at hr'
    split at hr'
    · rename_i ht
      subst ht
      rw [hr] at hr₀
      cases hr₀
      cases hr'
      refine .inr ⟨rfl, command.checkpointId, rfl, ?_⟩
      rw [hc]
      exact (hissued command hi).succeeds
    · exact hsame hr'
  | @applied row t₀ c size now hrow hr₀ hprom =>
    rw [threads_lower, threads_setThread] at hr'
    split at hr'
    · rename_i ht
      subst ht
      rw [hr] at hr₀
      cases hr₀
      cases hr'
      obtain ⟨-, hres, -, hcur, -, -⟩ := RuntimeOverride.promotable_iff.mp hprom
      obtain ⟨src, hsrc, hlink⟩ := (hrows _ row hrow).result_descends hres
      refine .inr ⟨rfl, c, rfl, ?_⟩
      rw [hcur, hsrc, store_lower]
      exact Relation.TransGen.single hlink
    · exact hsame hr'
  | saved hs =>
    obtain ⟨-, -, rfl⟩ := saveCheckpoint_eq_some.mp hs
    exact hsame hr'
  | @created taskId t₀ hnone =>
    rw [threads_setThread] at hr'
    split at hr'
    · rename_i ht
      rw [← ht, hr] at hnone
      cases hnone
    · exact hsame hr'

variable {command : PromoteCheckpoint} {s' : System} {a : Action} {c ov : String} {row' : RuntimeOverride}
  {commits : Bool} {v : ℕ}

namespace System

variable {worker : WorkerConfig}

theorem Provenance.certified (hp : Provenance worker s)
    (h : s.Issued command) : Certified s.db.store command := by
  obtain ⟨w, hw⟩ := h
  have hok := hp.workers w
  cases hst : s.workers w with
  | reconciling c =>
    rw [hst] at hw hok
    cases hw
    exact hok
  | promoting c nodes =>
    rw [hst] at hw hok
    cases hw
    exact hok
  | _ =>
    rw [hst] at hw
    cases hw

theorem step_pointer (hp : Provenance worker s) (h : step worker s a = some s') (hr : s.db.threads t = some r)
    (hr' : s'.db.threads t = some r') : Follows s'.db.store t r r' :=
  (step_change h).follows (fun _ hi => hp.certified hi) hp.rows hr hr'

/-! ### What descends from an applied override -/

/-- The canonical checkpoint of the thread is `c` or descends from it. -/
def AtOrBelow (db : Db) (t c : String) : Prop :=
  ∃ r cur, db.threads t = some r ∧ r.row.currentCheckpointId = some cur ∧
    (cur = c ∨ Descends db.store t cur c)

/-- Applied overrides stay above the canonical checkpoint. -/
def AppliedAbove (db : Db) : Prop :=
  ∀ ov row, db.ledger.find ov = some row → row.status = .applied →
    ∃ c, row.resultCheckpointId = some c ∧ AtOrBelow db row.threadId c

theorem step_atOrBelow (hp : Provenance worker s) (h : step worker s a = some s') (hb : AtOrBelow s.db t c) :
    AtOrBelow s'.db t c := by
  obtain ⟨r, cur, hr, hcur, hc⟩ := hb
  have he := step_evolves h
  obtain ⟨r', hr', -⟩ := he.threads t r hr
  obtain ⟨hsame, -⟩ | ⟨-, cur', hcur', hsucc⟩ := step_pointer hp h hr hr'
  · refine ⟨r', cur, hr', hsame.trans hcur, ?_⟩
    rcases hc with rfl | hc
    · exact .inl rfl
    · exact .inr (descends_mono he.store hc)
  · rw [hcur] at hsucc
    refine ⟨r', cur', hr', hcur', Or.inr ?_⟩
    rcases hc with rfl | hc
    · exact hsucc
    · exact Relation.TransGen.trans hsucc (descends_mono he.store hc)

theorem newly_applied (h : Db.Change issued db db') (hrow' : db'.ledger.find ov = some row')
    (happ : row'.status = .applied) :
    (∃ row, db.ledger.find ov = some row ∧ row.status = .applied ∧ row.Continues row') ∨
      ∃ c, row'.resultCheckpointId = some c ∧ AtOrBelow db' row'.threadId c := by
  have hsame : db.ledger.find ov = some row' → (∃ row, db.ledger.find ov = some row ∧
      row.status = .applied ∧ row.Continues row') ∨
        ∃ c, row'.resultCheckpointId = some c ∧ AtOrBelow db' row'.threadId c :=
    fun hrow => Or.inl ⟨row', hrow, happ, RuntimeOverride.Continues.refl row'⟩
  cases h with
  | same => exact hsame hrow'
  | reserved _ hadd =>
    have hrow₁ := hrow'
    rw [Table.find_add hadd] at hrow₁
    split at hrow₁
    · cases hrow₁
      cases happ
    · exact hsame hrow₁
  | @rewrote row row₁ hrow hcont hiff =>
    have hrow₂ : (db.ledger.replace row₁).find ov = some row' := hrow'
    rw [Table.find_replace] at hrow₂
    split at hrow₂
    · rename_i hov
      subst hov
      rw [hrow] at hrow₂
      cases hrow₂
      exact .inl ⟨row, hrow, hiff.mp happ, hcont⟩
    · exact hsame hrow₂
  | @applied row t c size now hrow ht hprom =>
    rw [Db.ledger_lower] at hrow'
    have hrow₂ : (db.ledger.replace (row.applyPromotion (t.row.stateVersion + 1) now)).find ov
        = some row' := hrow'
    rw [Table.find_replace] at hrow₂
    split at hrow₂
    · rename_i hov
      have hov' : ov = row.overrideId := hov
      subst hov'
      rw [hrow] at hrow₂
      cases hrow₂
      refine .inr ⟨c, (RuntimeOverride.promotable_iff.mp hprom).2.1,
        applyOverride t row c size, c, ?_, rfl, Or.inl rfl⟩
      rw [Db.threads_lower, Db.threads_setThread]
      exact if_pos rfl
    · exact hsame hrow₂
  | steered _ _ => exact hsame hrow'
  | promoted _ _ _ _ => exact hsame hrow'
  | saved hs =>
    obtain ⟨-, -, rfl⟩ := Db.saveCheckpoint_eq_some.mp hs
    exact hsame hrow'
  | created _ => exact hsame hrow'

theorem step_appliedAbove (hp : Provenance worker s) (h : step worker s a = some s')
    (ha : AppliedAbove s.db) : AppliedAbove s'.db := by
  intro ov row' hrow' happ
  obtain ⟨row, hrow, hst, hcont⟩ | hnew := newly_applied (step_change h) hrow' happ
  · obtain ⟨c, hc, hb⟩ := ha ov row hrow hst
    refine ⟨c, hcont.result c hc, ?_⟩
    rw [hcont.request.threadId]
    exact step_atOrBelow hp h hb
  · exact hnew

theorem exec_appliedAbove (h₀ : Initial s₀)
    (hrun : exec (step worker) s₀ run = some s) : AppliedAbove s.db := by
  have hinit : AppliedAbove s₀.db := by
    intro ov row hrow
    rw [h₀.find] at hrow
    cases hrow
  exact (exec_preserves (I := fun s => Provenance worker s ∧ AppliedAbove s.db)
    (fun _ _ _ hs hstep => ⟨step_provenance hs.1 hstep, step_appliedAbove hs.1 hstep hs.2⟩) hrun
    ⟨h₀.provenance, hinit⟩).2

/-! ### Promotions that return -/

/-- The promotion an action makes: the thread, the version it expects and the checkpoint. -/
def promotion (s : System) : Action → Option (String × ℕ × String)
  | .advance c _ =>
    match s.calls c with
    | .promoting ctx record =>
      some (ctx.threadId, ctx.request.expectedVersion, record.checkpointId)
    | _ => none
  | .advanceReconcile r _ =>
    match s.reconciles r with
    | .promoting item result => some (item.threadId, item.expectedVersion, result.checkpointId)
    | _ => none
  | .advanceWorker w _ =>
    (s.workers w).command.map fun command =>
      (command.threadId, command.expectedStateVersion, command.checkpointId)
  | _ => none

/-- The repository call of that promotion returns instead of raising. -/
def promotionReturns (s : System) : Action → Bool
  | .advance c o =>
    match s.calls c with
    | .promoting ctx record => (s.db.promoteApplied ctx.overrideId record.checkpointId
        record.serializedSizeBytes o.now o.commits).isOk
    | _ => false
  | .advanceReconcile r o =>
    match s.reconciles r with
    | .promoting item result => (s.db.promoteApplied item.overrideId result.checkpointId
        result.serializedSizeBytes o.now o.commits).isOk
    | _ => false
  | .advanceWorker w o =>
    match (s.workers w).command with
    | some command => (s.db.promoteCheckpoint command o.commits).isOk
    | none => false
  | _ => false

/-- The thread went from version `v` to the checkpoint `c` at `v + 1`. -/
def Moved (s s' : System) (t : String) (v : ℕ) (c : String) : Prop :=
  ∃ r r', s.db.threads t = some r ∧ r.row.stateVersion = v ∧ s'.db.threads t = some r' ∧
    r'.row.stateVersion = v + 1 ∧ r'.row.currentCheckpointId = some c

/-- The checkpoint is canonical already, or it is the recorded result of an applied override. -/
def AlreadyPromoted (db : Db) (t c : String) : Prop :=
  (∃ r, db.threads t = some r ∧ r.row.currentCheckpointId = some c) ∨
    ∃ ov row, db.ledger.find ov = some row ∧ row.status = .applied ∧ row.threadId = t ∧
      row.resultCheckpointId = some c

theorem isOk_eq_true {ε α : Type} {x : Except ε α} (h : x.isOk = true) : ∃ y, x = .ok y := by
  cases x with
  | error e => cases h
  | ok y => exact ⟨y, rfl⟩

theorem promoteCheckpoint_moves {row : RuntimeThread}
    (h : db.promoteCheckpoint command commits = .ok (row, db')) :
    (∃ r r', db.threads command.threadId = some r ∧
        r.row.stateVersion = command.expectedStateVersion ∧
        db'.threads command.threadId = some r' ∧
        r'.row.stateVersion = command.expectedStateVersion + 1 ∧
        r'.row.currentCheckpointId = some command.checkpointId) ∨
      (db'.threads = db.threads ∧ AlreadyPromoted db command.threadId command.checkpointId) := by
  obtain ⟨r, r', hr, hm, -, rfl⟩ := Db.updateThread_ok h
  obtain ⟨hcur, rfl⟩ | ⟨-, -, -, hv, -, -, rfl⟩ := ThreadRecord.promoteCheckpoint_ok hm
  · refine .inr ⟨?_, Or.inl ⟨r', hr, hcur⟩⟩
    funext t
    rw [Db.threads_setThread]
    split
    · rename_i ht
      rw [ht, hr]
    · rfl
  · refine .inl ⟨r, r.promoted command, hr, hv, ?_, ?_, rfl⟩
    · rw [Db.threads_setThread]
      exact if_pos rfl
    · rw [← hv]
      rfl

theorem promoteApplied_moves {size now : ℕ} (hrow : db.ledger.find ov = some row)
    (hres : row.resultCheckpointId = some c) (h : db.promoteApplied ov c size now commits = .ok (row', db')) :
    (∃ r r', db.threads row.threadId = some r ∧ r.row.stateVersion = row.expectedVersion ∧
        db'.threads row.threadId = some r' ∧ r'.row.stateVersion = row.expectedVersion + 1 ∧
        r'.row.currentCheckpointId = some c) ∨
      (db'.threads = db.threads ∧ AlreadyPromoted db row.threadId c) := by
  obtain ⟨row₁, hrow₁, hcase⟩ := Db.promoteApplied_ok h
  rw [hrow] at hrow₁
  cases hrow₁
  obtain ⟨hs, -, rfl⟩ | ⟨t, ht, hprom, -, -, rfl⟩ := hcase
  · exact .inr ⟨rfl, Or.inr ⟨ov, row, hrow, hs, rfl, hres⟩⟩
  · obtain ⟨-, -, -, -, hv, -⟩ := RuntimeOverride.promotable_iff.mp hprom
    refine .inl ⟨t, applyOverride t row c size, ht, hv, ?_, ?_, rfl⟩
    · rw [Db.threads_lower, Db.threads_setThread]
      exact if_pos rfl
    · rw [← hv]
      rfl

/-- A promotion that returns has moved its thread, or had done so before. -/
theorem promotion_returns (hp : Provenance worker s) (h : step worker s a = some s')
    (hprom : s.promotion a = some (t, v, c)) (hret : s.promotionReturns a = true) :
    Moved s s' t v c ∨ (s'.db.threads = s.db.threads ∧ AlreadyPromoted s.db t c) := by
  cases a with
  | advance c₀ o =>
    have hok := hp.calls c₀
    simp only [promotion, promotionReturns] at hprom hret
    cases hst : s.calls c₀ with
    | promoting ctx record =>
      simp only [hst] at hprom hret hok
      cases hprom
      obtain ⟨⟨row, hrow, hreq⟩, -, row₁, hrow₁, hres⟩ := hok
      rw [hrow] at hrow₁
      cases hrow₁
      obtain ⟨⟨row', db'⟩, hcall⟩ := isOk_eq_true hret
      have hs' : s'.db = db' := by
        obtain ⟨⟨st, db, locks⟩, hstep, rfl⟩ := Option.map_eq_some_iff.mp h
        rw [hst] at hstep
        obtain ⟨e, herr, -⟩ | ⟨row₂, db₂, hcall₂, hpr⟩ :=
          ApplyState.promote_cases ctx record o s.db
        · rw [hcall] at herr
          cases herr
        · rw [hcall] at hcall₂
          cases hcall₂
          have hstep' := Option.some.inj hstep
          simp only [ApplyState.step.keep, hpr] at hstep'
          exact (congrArg (fun p => p.2.1) hstep').symm
      have hmoves := promoteApplied_moves hrow hres hcall
      rw [hreq.threadId, hreq.expectedVersion] at hmoves
      unfold Moved
      rw [hs']
      exact hmoves
    | _ => simp only [hst] at hprom; cases hprom
  | advanceReconcile r o =>
    have hok := hp.reconciles r
    simp only [promotion, promotionReturns] at hprom hret
    cases hst : s.reconciles r with
    | promoting item result =>
      simp only [hst] at hprom hret hok
      cases hprom
      obtain ⟨⟨hs, row, hrow, hcont⟩, hres⟩ := hok
      obtain ⟨⟨row', db'⟩, hcall⟩ := isOk_eq_true hret
      have hs' : s'.db = db' := by
        obtain ⟨⟨st, db⟩, hstep, rfl⟩ := Option.map_eq_some_iff.mp h
        rw [hst] at hstep
        have hstep' : ReconcileState.promote item result o s.db = (st, db) :=
          Option.some.inj hstep
        simp only [ReconcileState.promote, hcall] at hstep'
        exact (congrArg Prod.snd hstep').symm
      have hmoves := promoteApplied_moves hrow (hcont.result _ hres) hcall
      rw [hcont.request.threadId, hcont.request.expectedVersion] at hmoves
      unfold Moved
      rw [hs']
      exact hmoves
    | _ => simp only [hst] at hprom; cases hprom
  | advanceWorker w o =>
    simp only [promotion, promotionReturns] at hprom hret
    cases hcmd : (s.workers w).command with
    | none => rw [hcmd] at hprom; cases hprom
    | some command =>
      simp only [hcmd] at hprom hret
      cases hprom
      obtain ⟨⟨row, db'⟩, hcall⟩ := isOk_eq_true hret
      have hs' : s'.db = db' := by
        obtain ⟨⟨st, db⟩, hstep, rfl⟩ := Option.map_eq_some_iff.mp h
        cases hst : s.workers w with
        | reconciling command' =>
          rw [hst] at hcmd hstep
          cases hcmd
          have hstep' : WorkerState.reconcile command o s.db = (st, db) :=
            Option.some.inj hstep
          simp only [WorkerState.reconcile, hcall] at hstep'
          exact (congrArg Prod.snd hstep').symm
        | promoting command' nodes =>
          rw [hst] at hcmd hstep
          cases hcmd
          have hstep' : WorkerState.promote command nodes o s.db = (st, db) :=
            Option.some.inj hstep
          simp only [WorkerState.promote, hcall] at hstep'
          exact (congrArg Prod.snd hstep').symm
        | _ => rw [hst] at hcmd; cases hcmd
      have hmoves := promoteCheckpoint_moves hcall
      unfold Moved
      rw [hs']
      exact hmoves
  | _ => cases hprom

theorem moved_once {s₁ s₂ : System} {more : List Action} {c' : String} (hm : Moved s s' t v c)
    (hrun : exec (step worker) s' more = some s₁) : ¬ Moved s₁ s₂ t v c' := by
  rintro ⟨r₁, -, hr₁, hv₁, -⟩
  obtain ⟨-, r', -, -, hr', hv', -⟩ := hm
  obtain ⟨r₂, hr₂, hadv⟩ := (exec_evolves hrun).threads t r' hr'
  rw [hr₁] at hr₂
  cases hr₂
  have hle := hadv.version
  omega

/-- **One canonical chain.**  For every step of every run: a moved pointer raises the version by one
and leads to a successor; a promotion that returns advances the thread from the version it carries
or changes nothing, and of the promotions of one version at most one advances; the version counts
promoted checkpoints and applied overrides; and what becomes canonical after an override was applied
descends from its result. -/
theorem canonical_chain {s₀ s s' : System} {run : List Action} {a : Action} (h₀ : Genesis s₀)
    (hrun : exec (step worker) s₀ run = some s) (hstep : step worker s a = some s') :
    (∀ t r r', s.db.threads t = some r → s'.db.threads t = some r' →
      r'.row.currentCheckpointId ≠ r.row.currentCheckpointId →
      r'.row.stateVersion = r.row.stateVersion + 1 ∧ ∃ c, r'.row.currentCheckpointId = some c ∧
        Succeeds s'.db.store t c r.row.currentCheckpointId) ∧
    (∀ t v c, s.promotion a = some (t, v, c) → s.promotionReturns a = true →
      (Moved s s' t v c ∨ (s'.db.threads = s.db.threads ∧ AlreadyPromoted s.db t c)) ∧
      ∀ more s₁ b s₂ c', Moved s s' t v c → exec (step worker) s' more = some s₁ →
        step worker s₁ b = some s₂ → s₁.promotion b = some (t, v, c') →
        s₁.promotionReturns b = true →
        s₂.db.threads = s₁.db.threads ∧ AlreadyPromoted s₁.db t c') ∧
    (∀ t r, s.db.threads t = some r →
      r.row.stateVersion = r.row.checkpointCount + s.db.appliedCount t) ∧
    (∀ ov row, s.db.ledger.find ov = some row → row.status = .applied →
      ∃ result, row.resultCheckpointId = some result ∧ ∀ r r' c,
        s.db.threads row.threadId = some r → s'.db.threads row.threadId = some r' →
        r'.row.currentCheckpointId ≠ r.row.currentCheckpointId →
        r'.row.currentCheckpointId = some c → Descends s'.db.store row.threadId c result) := by
  have hp : Provenance worker s := exec_provenance h₀.toInitial.provenance hrun
  have hp' : Provenance worker s' := step_provenance hp hstep
  have hpointer : ∀ t r r', s.db.threads t = some r → s'.db.threads t = some r' →
      r'.row.currentCheckpointId ≠ r.row.currentCheckpointId →
      r'.row.stateVersion = r.row.stateVersion + 1 ∧ ∃ c, r'.row.currentCheckpointId = some c ∧
        Succeeds s'.db.store t c r.row.currentCheckpointId := by
    intro t r r' hr hr' hne
    obtain ⟨hsame, -⟩ | hmoved := step_pointer hp hstep hr hr'
    · exact absurd hsame hne
    · exact hmoved
  refine ⟨hpointer, ?_, exec_balanced h₀ hrun, ?_⟩
  · intro t v c hprom hret
    refine ⟨promotion_returns hp hstep hprom hret, ?_⟩
    intro more s₁ b s₂ c' hm hmore hb hprom' hret'
    have hp₁ : Provenance worker s₁ := exec_provenance hp' hmore
    obtain hm' | hsame := promotion_returns hp₁ hb hprom' hret'
    · exact absurd hm' (moved_once hm hmore)
    · exact hsame
  · intro ov row hrow happ
    obtain ⟨result, hres, rec, cur, hrec, hcur, hbelow⟩ :=
      exec_appliedAbove h₀.toInitial hrun ov row hrow happ
    refine ⟨result, hres, ?_⟩
    intro r r' c hr hr' hne hc
    rw [hr] at hrec
    obtain rfl := Option.some.inj hrec
    obtain ⟨-, c₁, hc₁, hsucc⟩ := hpointer _ r r' hr hr' hne
    rw [hc] at hc₁
    cases hc₁
    rw [hcur] at hsucc
    rcases hbelow with rfl | hbelow
    · exact hsucc
    · exact Relation.TransGen.trans hsucc (descends_mono (step_evolves hstep).store hbelow)

/-! ### A run with two promotions of one version

A thread is run to the `environment` boundary at version 4.  A second worker reads it there.  An
override of version 4 is applied (checkpoint `c5`, version 5), a third worker promotes `c6`
(version 6), and only then the second worker reconciles with its old snapshot: `c6` also descends
from `c4`, so its command carries version 4 for `c6`, and returns because `c6` is canonical. -/

def empty : System where
  db := ⟨fun _ => none, Table.empty, fun _ => none, fun _ => none⟩
  locks := fun _ => none
  calls := fun _ => .idle
  reconciles := fun _ => .idle
  workers := fun _ => .idle

theorem empty_genesis : Genesis empty where
  store := ⟨fun _ _ _ h => (by cases h), fun _ _ _ _ h => (by cases h)⟩
  threadIds _ _ h := by cases h
  unfenced _ _ h := by cases h
  ledger := rfl
  fence _ := rfl
  calls _ := rfl
  reconciles _ := rfl
  workers _ := rfl
  newborn _ _ h := by cases h

def exampleWorker : WorkerConfig := ⟨⟨20, 1000⟩, "worker-1", "1-0:1:worker-1"⟩

def exampleRecord (id : String) (parent : Option String) (node : String) (count : ℤ)
    (vehicleStatus : String) : CheckpointRecord where
  threadId := "thread"
  checkpointId := id
  parentCheckpointId := parent
  checkpointNamespace := ""
  state :=
    [("vehicle_id", .str "V1"), ("vehicle_status", .str vehicleStatus),
      ("last_completed_node", .str node), ("completed_node_count", .int count)]
  serializedSizeBytes := 100

/-- The checkpoints the graph leaves on the way to the `environment` boundary, newest first. -/
def environmentRecords : List CheckpointRecord :=
  [exampleRecord "c4" (some "c3") "environment" 4 "NORMAL",
    exampleRecord "c3" (some "c2") "graph_memory" 3 "NORMAL",
    exampleRecord "c2" (some "c1") "entity_memory" 2 "NORMAL",
    exampleRecord "c1" none "intake" 1 "NORMAL"]

def candidateRecord : CheckpointRecord := exampleRecord "c5" (some "c4") "environment" 4 "BROKEN"

/-- The checkpoint of the next node, after the override. -/
def capacityRecord : CheckpointRecord := exampleRecord "c6" (some "c5") "capacity" 5 "BROKEN"

/-- The world does what is asked. -/
def smooth : Outcome where
  now := 10
  uuid := "override-1"
  lockAvailable := true
  storeAvailable := true
  update := .written candidateRecord ["capacity"] true
  commits := true
  published := true

/-- A worker's outcome with a listing, the next update, and whether it reconciles. -/
def workerOutcome (listing : List CheckpointRecord) (update : Option (List String))
    (reconciles : Bool) : WorkerOutcome where
  listing := listing
  update := update
  commits := true
  polls := false
  reconciles := reconciles

/-- An operator takes the vehicle of the example thread out of service. -/
def breakdownInput (idempotencyKey : String) (expectedNextNode : Option String) : ApplyInput where
  threadId := "thread"
  request :=
    { idempotencyKey := idempotencyKey, entityType := "Vehicle", entityId := "V1"
      field := "status", oldValue := "NORMAL", newValue := "BROKEN", reason := "engine failure"
      expectedVersion := 4, expectedNextNode := expectedNextNode }
  principal := { subjectId := "operator-1", roles := ["OPERATOR"], permissions := ["runtime:override"] }

/-- A worker runs a new thread to the `environment` boundary. -/
def toEnvironment : List Action :=
  [.createThread "task" "thread"] ++ environmentRecords.reverse.map .saveCheckpoint ++
    [.beginWorker 0 "thread", .advanceWorker 0 (workerOutcome [] none false),
      .advanceWorker 0 (workerOutcome [] none false),
      .advanceWorker 0 (workerOutcome [] none false),
      .advanceWorker 0 (workerOutcome []
        (some ["intake", "entity_memory", "graph_memory", "environment"]) false)] ++
    List.replicate 8 (.advanceWorker 0 (workerOutcome environmentRecords none false))

/-- Another worker reads the thread there, and an override is applied up to its promotion. -/
def toPromotion : List Action :=
  toEnvironment ++
    [.beginWorker 1 "thread", .advanceWorker 1 (workerOutcome [] none false),
      .beginApply 0 (breakdownInput "key-1" (some "capacity"))] ++
    List.replicate 9 (.advance 0 smooth)

/-- A third worker promotes the next node, and the second one lists the store. -/
def afterPromotion : List Action :=
  [.saveCheckpoint capacityRecord, .beginWorker 2 "thread",
    .advanceWorker 2 (workerOutcome [] none false),
    .advanceWorker 2 (workerOutcome [capacityRecord, candidateRecord] none true),
    .advanceWorker 2 (workerOutcome [] none false),
    .advanceWorker 1 (workerOutcome ([capacityRecord, candidateRecord] ++ environmentRecords) none
      true)]

/-- At the end of the prefix the override moves the pointer, and the version with it. -/
theorem canonical_chain_override : ∃ s s' r r',
    exec (step exampleWorker) empty toPromotion = some s ∧
      step exampleWorker s (.advance 0 smooth) = some s' ∧
      s.db.threads "thread" = some r ∧ s'.db.threads "thread" = some r' ∧
      r'.row.currentCheckpointId ≠ r.row.currentCheckpointId ∧
      r'.row.stateVersion = r.row.stateVersion + 1 := by
  have hrun : ((exec (step exampleWorker) empty toPromotion).bind fun s =>
      (step exampleWorker s (.advance 0 smooth)).bind fun s' =>
        (s.db.threads "thread").bind fun r => (s'.db.threads "thread").map fun r' =>
          decide (r'.row.currentCheckpointId ≠ r.row.currentCheckpointId)) = some true := by
    decide +kernel
  obtain ⟨s, hs, hrun⟩ := Option.bind_eq_some_iff.mp hrun
  obtain ⟨s', hs', hrun⟩ := Option.bind_eq_some_iff.mp hrun
  obtain ⟨r, hr, hrun⟩ := Option.bind_eq_some_iff.mp hrun
  obtain ⟨r', hr', hne⟩ := Option.map_eq_some_iff.mp hrun
  have hne' := of_decide_eq_true hne
  exact ⟨s, s', r, r', hs, hs', hr, hr', hne',
    ((canonical_chain empty_genesis hs hs').1 "thread" r r' hr hr' hne').1⟩

/-- **Two promotions of one version can both return**, for different checkpoints. -/
theorem promotions_of_one_version_both_return :
    ¬ ∀ (run more : List Action) (s s' s₁ : System) (a b : Action) (t : String) (v : ℕ)
        (c c' : String), exec (step exampleWorker) empty run = some s →
      step exampleWorker s a = some s' → exec (step exampleWorker) s' more = some s₁ →
      s.promotion a = some (t, v, c) → s₁.promotion b = some (t, v, c') → c ≠ c' →
      ¬ (s.promotionReturns a = true ∧ s₁.promotionReturns b = true) := by
  intro honce
  have hrun : ((exec (step exampleWorker) empty toPromotion).bind fun s =>
      (step exampleWorker s (.advance 0 smooth)).bind fun s' =>
        (exec (step exampleWorker) s' afterPromotion).map fun s₁ =>
          decide (s.promotion (.advance 0 smooth) = some ("thread", 4, "c5") ∧
            s.promotionReturns (.advance 0 smooth) = true ∧
            s₁.promotion (.advanceWorker 1 (workerOutcome [] none true)) =
              some ("thread", 4, "c6") ∧
            s₁.promotionReturns (.advanceWorker 1 (workerOutcome [] none true)) = true)) =
      some true := by
    decide +kernel
  obtain ⟨s, hs, hrun⟩ := Option.bind_eq_some_iff.mp hrun
  obtain ⟨s', hs', hrun⟩ := Option.bind_eq_some_iff.mp hrun
  obtain ⟨s₁, hs₁, hrun⟩ := Option.map_eq_some_iff.mp hrun
  obtain ⟨hp, hret, hp', hret'⟩ := of_decide_eq_true hrun
  exact honce toPromotion afterPromotion s s' s₁ _ _ "thread" 4 "c5" "c6" hs hs' hs₁ hp hp'
    (by decide) ⟨hret, hret'⟩

end System

end CountyFlow.Override
