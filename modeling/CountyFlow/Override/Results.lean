import CountyFlow.Override.Owner

/-!
# What an override contributes to its thread

Two accounts of the promotions of an override, for runs of calls and reconciliations: it raises the version
of its thread by one if it is `APPLIED`, and not at all before; and no two overrides share a checkpoint of
the updater, of which only that of an `APPLIED` override is on the canonical chain.
-/

namespace CountyFlow.Override

open CountyFlow.Lib CountyFlow.Core CountyFlow.Runtime Function

/-- The version of a thread, 0 before it is created. -/
def Db.version (db : Db) (t : String) : ℕ := ((db.threads t).map fun r => r.row.stateVersion).getD 0

/-- 1 for an override that is `APPLIED`, else 0. -/
def Db.applications (db : Db) (ov : String) : ℕ :=
  if (db.ledger.find ov).any fun row => row.status = .applied then 1 else 0

variable {db : Db} {t : String}

theorem Db.version_eq {r : ThreadRecord} (h : db.threads t = some r) : db.version t = r.row.stateVersion := by
  unfold Db.version
  rw [h]
  rfl

variable {ov : String} {row : RuntimeOverride}

theorem Db.applications_eq (h : db.ledger.find ov = some row) :
    db.applications ov = if row.status = .applied then 1 else 0 := by
  unfold Db.applications
  rw [h]
  simp

theorem Db.applications_none (h : db.ledger.find ov = none) : db.applications ov = 0 := by
  unfold Db.applications
  rw [h]
  rfl

/-- Without a worker's command no pointer moves, or one to the result of a row that is applied. -/
theorem Db.Change.promotes {db' : Db} (h : Db.Change (fun _ => False) db db') :
    ((∀ t, db'.version t = db.version t) ∧ (∀ ov, db'.applications ov = db.applications ov) ∧
        ∀ t r r', db.threads t = some r → db'.threads t = some r' →
          r'.row.currentCheckpointId = r.row.currentCheckpointId) ∨
      ∃ row row' r c, db.ledger.find row.overrideId = some row ∧ row.status ≠ .applied ∧
        db.threads row.threadId = some r ∧ row.resultCheckpointId = some c ∧
        r.row.currentCheckpointId = row.sourceCheckpointId ∧
        db'.ledger.find row.overrideId = some row' ∧ row'.status = .applied ∧
        (∀ ov, ov ≠ row.overrideId → db'.applications ov = db.applications ov) ∧
        db'.version row.threadId = r.row.stateVersion + 1 ∧
        ∀ t r', db'.threads t = some r' →
          (t = row.threadId ∧ r'.row.currentCheckpointId = some c) ∨
            (t ≠ row.threadId ∧ db.threads t = some r') := by
  have hpointer : db'.threads = db.threads → ∀ t r r', db.threads t = some r →
      db'.threads t = some r' → r'.row.currentCheckpointId = r.row.currentCheckpointId := by
    intro hthreads t r r' hr hr'
    rw [hthreads, hr] at hr'
    rw [Option.some.inj hr']
  cases h with
  | same => exact .inl ⟨fun _ => rfl, fun _ => rfl, hpointer rfl⟩
  | @reserved c t expires ledger ht hadd =>
    refine .inl ⟨fun _ => rfl, fun ov => ?_, hpointer rfl⟩
    show (if (ledger.find ov).any fun row => row.status = .applied then 1 else 0) = _
    rw [Table.find_add hadd]
    split
    · rename_i hov
      subst hov
      rw [Db.applications_none (Table.find_none_of_add hadd)]
      rfl
    · rfl
  | @rewrote row row' hrow hcont hiff =>
    refine .inl ⟨fun _ => rfl, fun ov => ?_, hpointer rfl⟩
    show (if ((db.ledger.replace row').find ov).any fun row => row.status = .applied then 1 else 0)
      = _
    rw [Table.find_replace]
    split
    · rename_i hov
      subst hov
      rw [Db.applications_eq hrow, hrow]
      simp [hiff]
    · rfl
  | @steered t r r' fence hr hsteered =>
    have hthreads : ∀ t', (db.setThread t r').threads t' =
        if t' = t then some r' else db.threads t' := fun t' => Db.threads_setThread db t t' r'
    refine .inl ⟨fun t' => ?_, fun _ => rfl, fun t' r₁ r₂ hr₁ hr₂ => ?_⟩
    · show (((db.setThread t r').threads t').map fun r => r.row.stateVersion).getD 0 = _
      rw [hthreads]
      split
      · rename_i ht
        subst ht
        rw [Db.version_eq hr]
        exact hsteered.version
      · rfl
    · have hr₃ : (db.setThread t r').threads t' = some r₂ := hr₂
      rw [hthreads] at hr₃
      split at hr₃
      · rename_i ht
        subst ht
        rw [hr] at hr₁
        rw [← Option.some.inj hr₁, ← Option.some.inj hr₃]
        exact hsteered.pointer
      · rw [hr₁] at hr₃
        rw [Option.some.inj hr₃]
  | promoted _ _ _ hissued => exact hissued.elim
  | @applied row r c size now hrow hr hprom =>
    obtain ⟨hstatus, hresult, -, hsource, -, -⟩ := RuntimeOverride.promotable_iff.mp hprom
    let row' := row.applyPromotion (r.row.stateVersion + 1) now
    refine .inr ⟨row, row', r, c, hrow, ?_, hr, hresult, hsource, ?_, rfl, fun ov hov => ?_, ?_,
      fun t r' hr' => ?_⟩
    · rcases hstatus with hs | hs <;> rw [hs] <;> decide
    · rw [Db.ledger_lower]
      exact Table.find_replace_self hrow
    · unfold Db.applications
      rw [Db.ledger_lower]
      show (if ((db.ledger.replace row').find ov).any fun row => row.status = .applied then 1
        else 0) = _
      rw [Table.find_replace_ne db.ledger row' (show ov ≠ row'.overrideId from hov)]
    · unfold Db.version
      rw [Db.threads_lower, Db.threads_setThread, if_pos rfl]
      rfl
    · rw [Db.threads_lower, Db.threads_setThread] at hr'
      split at hr'
      · rename_i ht
        rw [← Option.some.inj hr']
        exact .inl ⟨ht, rfl⟩
      · rename_i ht
        exact .inr ⟨ht, hr'⟩
  | saved hs =>
    obtain ⟨-, -, rfl⟩ := Db.saveCheckpoint_eq_some.mp hs
    exact .inl ⟨fun _ => rfl, fun _ => rfl, hpointer rfl⟩
  | @created taskId t hnone =>
    refine .inl ⟨fun t' => ?_, fun _ => rfl, fun t' r r' hr hr' => ?_⟩
    · unfold Db.version
      rw [Db.threads_setThread]
      split
      · rename_i ht
        rw [ht, hnone]
        rfl
      · rfl
    · rw [Db.threads_setThread] at hr'
      split at hr'
      · rename_i ht
        rw [ht, hnone] at hr
        cases hr
      · rw [hr] at hr'
        rw [Option.some.inj hr']

/-! ### The checkpoints made for an override -/

/-- The candidate a call carries: its override, its thread and the checkpoint. -/
def ApplyState.candidate : ApplyState → Option (String × String × String)
  | .attaching ctx record | .promoting ctx record =>
    some (ctx.overrideId, ctx.threadId, record.checkpointId)
  | _ => none

theorem ApplyState.step_candidate {config : RuntimeConfig} {c : ℕ} {o : Outcome} {db' : Db}
    {locks locks' : Locks} {st st' : ApplyState} {k : String × String × String}
    (h : step config c o db locks st = some (st', db', locks')) (hk : st'.candidate = some k) :
    st.candidate = some k ∨ ∃ ctx thread source record nextNodes,
      st = .updating ctx thread source ∧ k = (ctx.overrideId, ctx.threadId, record.checkpointId) ∧
      db.saveCheckpoint record = some db' ∧
      Validated config.maxCheckpointBytes source record nextNodes ctx.request.newValue
        (thread.nextNode.getD "") := by
  cases step_moves h with
  | @updated ctx thread source record next db₁ hs hv =>
    exact .inr ⟨ctx, thread, source, record, next, rfl, (Option.some.inj hk).symm, hs, hv⟩
  | attached => exact .inl hk
  | _ => cases hk

theorem ApplyState.Writes.result {st : ApplyState} {row' : RuntimeOverride}
    (h : st.Writes row row') : row'.resultCheckpointId = row.resultCheckpointId ∨
      ∃ ctx record, st = .attaching ctx record ∧
        row'.resultCheckpointId = some record.checkpointId := by
  cases h with
  | same => exact .inl rfl
  | marked hp => exact .inl rfl
  | attached hp => exact .inr ⟨_, _, rfl, rfl⟩
  | promoted hp => exact .inl rfl
  | published => exact .inl rfl
  | finished =>
    unfold RuntimeOverride.finish
    split <;> exact .inl rfl
  | setPartial =>
    unfold RuntimeOverride.markPartial
    split <;> exact .inl rfl

theorem ReconcileState.Writes.result {st : ReconcileState} {row' : RuntimeOverride}
    (h : st.Writes row row') : row'.resultCheckpointId = row.resultCheckpointId := by
  cases h with
  | same => rfl
  | promoted hp => rfl
  | finished =>
    unfold RuntimeOverride.finish
    split <;> rfl
  | setPartial =>
    unfold RuntimeOverride.markPartial
    split <;> rfl

theorem descends_back {store store' : CheckpointStore} (hok : StoreOk store)
    (hs : ∀ k r, store k = some r → store' k = some r) {c a : String} (hstored : store (t, c) ≠ none)
    (h : Descends store' t c a) : Descends store t c a ∧ store (t, a) ≠ none := by
  have hlink : ∀ b d, store (t, b) ≠ none → ParentIn store' t b d →
      ParentIn store t b d ∧ store (t, d) ≠ none := by
    rintro b d hb ⟨record', hr', hpar⟩
    obtain ⟨record, hr⟩ := Option.ne_none_iff_exists'.mp hb
    rw [hs _ _ hr] at hr'
    obtain rfl := Option.some.inj hr'
    exact ⟨⟨record, hr, hpar⟩, hok.parent t b record d hr hpar⟩
  induction h with
  | single hp =>
    obtain ⟨hp', hd⟩ := hlink c _ hstored hp
    exact ⟨Relation.TransGen.single hp', hd⟩
  | tail _ hp ih =>
    obtain ⟨hp', hd⟩ := hlink _ _ ih.2 hp
    exact ⟨Relation.TransGen.tail ih.1 hp', hd⟩

variable {a : Action} {run : List Action}

namespace System

variable {worker : WorkerConfig}

/-! ### The versions an override has raised -/

/-- The override the moving process works on. -/
def actor (s : System) : Action → Option String
  | .advance c _ => (s.calls c).override
  | .advanceReconcile i _ => (s.reconciles i).override
  | _ => none

/-- By how much the steps of a run that work on the override raise the version of a thread. -/
def raisedBy (worker : WorkerConfig) (t ov : String) : System → List Action → ℕ
  | _, [] => 0
  | s, a :: as =>
    match step worker s a with
    | none => 0
    | some s' => (if s.actor a = some ov then s'.db.version t - s.db.version t else 0) +
        raisedBy worker t ov s' as

variable {s s' : System}

theorem actor_of_changed (ha : a.overrides = true) (h : step worker s a = some s') {row' : RuntimeOverride}
    (hrow : s.db.ledger.find ov = some row) (hrow' : s'.db.ledger.find ov = some row')
    (hne : row' ≠ row) : s.actor a = some ov := by
  have hsame : s'.db = s.db → s.actor a = some ov := by
    intro hdb
    rw [hdb, hrow] at hrow'
    exact absurd (Option.some.inj hrow').symm hne
  cases a with
  | beginApply c input =>
    simp only [step] at h
    split at h
    · cases h; exact hsame rfl
    · cases h
  | advance c o =>
    obtain ⟨⟨st, db, locks⟩, hstep, rfl⟩ := Option.map_eq_some_iff.mp h
    obtain ⟨row₁, hrow₁, -, rfl | ⟨hov, -⟩⟩ | ⟨input, command, taskId, -, hnone, -⟩ :=
      call_row hstep hrow'
    · rw [hrow] at hrow₁
      exact absurd (Option.some.inj hrow₁).symm hne
    · exact hov
    · rw [hrow] at hnone
      cases hnone
  | crash c =>
    simp only [step] at h
    split at h
    · cases h; exact hsame rfl
    · cases h
  | expireLock t => cases h; exact hsame rfl
  | beginReconcile r ov =>
    simp only [step] at h
    split at h
    · cases h; exact hsame rfl
    · cases h
  | advanceReconcile i o =>
    obtain ⟨⟨st, db⟩, hstep, rfl⟩ := Option.map_eq_some_iff.mp h
    obtain ⟨row₁, hrow₁, -, rfl | ⟨hov, -⟩⟩ := reconcile_row hstep hrow'
    · rw [hrow] at hrow₁
      exact absurd (Option.some.inj hrow₁).symm hne
    · exact hov
  | crashReconcile r =>
    simp only [step] at h
    split at h
    · cases h; exact hsame rfl
    · cases h
  | _ => cases ha

/-- An override is applied as often as its actor raises the version. -/
theorem step_raised (ha : a.overrides = true) (h : step worker s a = some s')
    (ht : ∀ row, s.db.ledger.find ov = some row → row.threadId = t) :
    s.db.applications ov +
        (if s.actor a = some ov then s'.db.version t - s.db.version t else 0) =
      s'.db.applications ov := by
  obtain ⟨hversion, happs, -⟩ |
    ⟨row₀, row₀', r, c, hrow₀, hne, hr, -, -, hrow₀', happ, hothers, hversion, -⟩ :=
    (step_change_overrides ha h).promotes
  · rw [hversion, happs, Nat.sub_self, ite_self]
    rfl
  · have hactor : s.actor a = some row₀.overrideId := by
      refine actor_of_changed ha h hrow₀ hrow₀' fun heq => ?_
      rw [heq] at happ
      exact hne happ
    by_cases hov : ov = row₀.overrideId
    · subst hov
      rw [← ht row₀ hrow₀, if_pos hactor, hversion, Db.version_eq hr, Db.applications_eq hrow₀,
        if_neg hne, Db.applications_eq hrow₀', if_pos happ]
      omega
    · rw [if_neg, hothers ov hov, Nat.add_zero]
      rw [hactor]
      intro heq
      exact hov (Option.some.inj heq).symm

theorem exec_raised (hok : Meets (step worker) (fun _ a => a.overrides = true) s run)
    (hrun : exec (step worker) s run = some s') (hrow : s'.db.ledger.find ov = some row) :
    s.db.applications ov + raisedBy worker row.threadId ov s run = s'.db.applications ov := by
  induction run generalizing s with
  | nil =>
    rw [exec_nil] at hrun
    rw [Option.some.inj hrun]
    rfl
  | cons a as ih =>
    obtain ⟨m, hm, hrest⟩ := exec_cons_eq_some.mp hrun
    have hthread : ∀ row₁, s.db.ledger.find ov = some row₁ → row₁.threadId = row.threadId := by
      intro row₁ hrow₁
      obtain ⟨row₂, hrow₂, hcont⟩ := (exec_evolves hrun).rows ov row₁ hrow₁
      rw [hrow] at hrow₂
      rw [Option.some.inj hrow₂]
      exact hcont.request.threadId.symm
    have hstep := step_raised hok.1 hm hthread
    have hih := ih (hok.2 m hm) hrest
    have hunfold : raisedBy worker row.threadId ov s (a :: as) =
        (if s.actor a = some ov then m.db.version row.threadId - s.db.version row.threadId
          else 0) + raisedBy worker row.threadId ov m as := by
      conv_lhs => unfold raisedBy
      rw [hm]
    rw [hunfold]
    omega

/-! ### The canonical chain -/

/-- A checkpoint made for the override on a thread: its row records it, or a call carries it. -/
def Candidate (s : System) (ov t c : String) : Prop :=
  (∃ row, s.db.ledger.find ov = some row ∧ row.threadId = t ∧ row.resultCheckpointId = some c) ∨
    ∃ i, (s.calls i).candidate = some (ov, t, c)

theorem Candidate.known (hp : Provenance worker s) {c : String} (h : s.Candidate ov t c) :
    (∃ row, s.db.ledger.find ov = some row ∧ row.threadId = t) ∧ (∃ source, s.Names ov source) ∧
      s.db.store (t, c) ≠ none := by
  obtain ⟨row, hrow, rfl, hc⟩ | ⟨i, hi⟩ := h
  · obtain ⟨source, result, hsource, -, hstored, -⟩ := (hp.rows ov row hrow).result c hc
    refine ⟨⟨row, hrow, rfl⟩, ⟨_, Or.inl ⟨row, hrow, hsource⟩⟩, ?_⟩
    rw [hstored]
    exact Option.some_ne_none _
  · have hok := hp.calls i
    have hname : ∀ ctx record, CtxOk s.db ctx → CandidateOk worker.runtime s.db ctx record →
        (s.calls i).source = record.parentCheckpointId.map (fun p => (ctx.overrideId, p)) →
        (ov, t, c) = (ctx.overrideId, ctx.threadId, record.checkpointId) →
        (∃ row, s.db.ledger.find ov = some row ∧ row.threadId = t) ∧
          (∃ source, s.Names ov source) ∧ s.db.store (t, c) ≠ none := by
      rintro ctx record ⟨row, hrow, hreq⟩ ⟨hstored, thread, source, next, -, hv, -⟩ hsource hk
      cases hk
      refine ⟨⟨row, hrow, hreq.threadId⟩, ⟨source.checkpointId, Or.inr ⟨i, ?_⟩⟩, ?_⟩
      · rw [hsource, hv.parent]
        rfl
      · rw [hstored]
        exact Option.some_ne_none _
    cases hst : s.calls i with
    | attaching ctx record =>
      rw [hst] at hi hok
      exact hname ctx record hok.1 hok.2 (by rw [hst]; rfl) (Option.some.inj hi).symm
    | promoting ctx record =>
      rw [hst] at hi hok
      exact hname ctx record hok.1 hok.2.1 (by rw [hst]; rfl) (Option.some.inj hi).symm
    | _ => rw [hst] at hi; cases hi

/-- A candidate is an old one, or has been saved by this step. -/
theorem candidate_step (ha : a.overrides = true) (hp : Provenance worker s) (h : step worker s a = some s')
    {c : String} (hc : s'.Candidate ov t c) :
    s.Candidate ov t c ∨ ∃ i o ctx thread source record, a = .advance i o ∧
      s.calls i = .updating ctx thread source ∧ ctx.overrideId = ov ∧ ctx.threadId = t ∧
      record.checkpointId = c ∧ record.threadId = t ∧ s.db.saveCheckpoint record = some s'.db := by
  have hquiet : s'.db = s.db → (∀ i k, (s'.calls i).candidate = some k →
      (s.calls i).candidate = some k) → s.Candidate ov t c := by
    intro hdb hcalls
    obtain ⟨row, hrow, ht, hres⟩ | ⟨i, hi⟩ := hc
    · rw [hdb] at hrow
      exact .inl ⟨row, hrow, ht, hres⟩
    · exact .inr ⟨i, hcalls i _ hi⟩
  have hupdate : ∀ c₀ st, st.candidate = none → ∀ i k,
      (update s.calls c₀ st i).candidate = some k → (s.calls i).candidate = some k := by
    intro c₀ st hnone i k hk
    rw [update_apply] at hk
    split at hk
    · rw [hnone] at hk
      cases hk
    · exact hk
  cases a with
  | beginApply c₀ input =>
    simp only [step] at h
    split at h
    · cases h
      exact .inl (hquiet rfl (hupdate c₀ _ rfl))
    · cases h
  | crash c₀ =>
    simp only [step] at h
    split at h
    · cases h
      exact .inl (hquiet rfl (hupdate c₀ _ rfl))
    · cases h
  | expireLock t => cases h; exact .inl (hquiet rfl fun _ _ hk => hk)
  | beginReconcile r ov =>
    simp only [step] at h
    split at h
    · cases h; exact .inl (hquiet rfl fun _ _ hk => hk)
    · cases h
  | crashReconcile r =>
    simp only [step] at h
    split at h
    · cases h; exact .inl (hquiet rfl fun _ _ hk => hk)
    · cases h
  | advanceReconcile i o =>
    obtain ⟨⟨st, db⟩, hstep, rfl⟩ := Option.map_eq_some_iff.mp h
    refine .inl ?_
    obtain ⟨row', hrow', ht, hres⟩ | hcall := hc
    · obtain ⟨row, hrow, hcont, rfl | ⟨-, hw⟩⟩ := reconcile_row hstep hrow'
      · exact .inl ⟨_, hrow, ht, hres⟩
      · refine .inl ⟨row, hrow, hcont.request.threadId.symm.trans ht, ?_⟩
        rw [← hw.result]
        exact hres
    · exact .inr hcall
  | advance i o =>
    obtain ⟨⟨st, db, locks⟩, hstep, rfl⟩ := Option.map_eq_some_iff.mp h
    obtain ⟨row', hrow', ht, hres⟩ | ⟨j, hj⟩ := hc
    · obtain ⟨row, hrow, hcont, rfl | ⟨hov, hw⟩⟩ | ⟨input, command, taskId, -, -, -, rfl⟩ :=
        call_row hstep hrow'
      · exact .inl (Or.inl ⟨_, hrow, ht, hres⟩)
      · have hthread : row.threadId = t := hcont.request.threadId.symm.trans ht
        obtain hsame | ⟨ctx, record, hst, hid⟩ := hw.result
        · rw [hsame] at hres
          exact .inl (Or.inl ⟨row, hrow, hthread, hres⟩)
        · refine .inl (Or.inr ⟨i, ?_⟩)
          have hok := hp.calls i
          rw [hst] at hov hok
          cases hov
          obtain ⟨⟨row₁, hrow₁, hreq⟩, -⟩ := hok
          rw [hrow] at hrow₁
          cases hrow₁
          rw [hid] at hres
          rw [hst, ← hthread, hreq.threadId, ← Option.some.inj hres]
          rfl
      · cases hres
    · have hj' : (update s.calls i st j).candidate = some (ov, t, c) := hj
      rw [update_apply] at hj'
      split at hj'
      · obtain hold | ⟨ctx, thread, source, record, next, hst, hk, hs, hv⟩ :=
          ApplyState.step_candidate hstep hj'
        · exact .inl (Or.inr ⟨i, hold⟩)
        · cases hk
          refine .inr ⟨i, o, ctx, thread, source, record, rfl, hst, rfl, rfl, rfl, ?_, hs⟩
          have hok := hp.calls i
          rw [hst] at hok
          obtain ⟨-, hb, -⟩ := hok
          rw [hv.thread]
          exact (hp.store.filed _ _ _ hb.stored).1
      · exact .inl (Or.inr ⟨j, hj'⟩)
  | _ => cases ha

theorem Provenance.names_stored (hp : Provenance worker s) {c : String} (hn : s.Names ov c)
    (hrow : s.db.ledger.find ov = some row) : s.db.store (row.threadId, c) ≠ none := by
  obtain ⟨row₁, hrow₁, hc⟩ | ⟨i, hi⟩ := hn
  · rw [hrow] at hrow₁
    cases hrow₁
    obtain ⟨source, rfl, hok⟩ := (hp.rows ov row hrow).source c hc
    rw [hok.stored]
    exact Option.some_ne_none _
  · have hok := hp.calls i
    -- The call claimed at a boundary whose checkpoint it had loaded.
    have hboundary : ∀ ctx thread source, CtxOk s.db ctx → BoundaryOk s.db ctx thread source →
        some (ctx.overrideId, source.checkpointId) = some (ov, c) →
        s.db.store (row.threadId, c) ≠ none := by
      rintro ctx thread source ⟨row₁, hrow₁, hreq⟩ hb hk
      cases hk
      rw [hrow] at hrow₁
      cases hrow₁
      rw [hreq.threadId, hb.stored]
      exact Option.some_ne_none _
    have hcandidate : ∀ ctx record, CtxOk s.db ctx → CandidateOk worker.runtime s.db ctx record →
        record.parentCheckpointId.map (fun p => (ctx.overrideId, p)) = some (ov, c) →
        s.db.store (row.threadId, c) ≠ none := by
      rintro ctx record hctx ⟨-, thread, source, next, hb, hv, -⟩ hk
      rw [hv.parent] at hk
      exact hboundary ctx thread source hctx hb hk
    cases hst : s.calls i with
    | marking ctx thread source =>
      rw [hst] at hi hok
      exact hboundary ctx thread source hok.1 hok.2 hi
    | updating ctx thread source =>
      rw [hst] at hi hok
      exact hboundary ctx thread source hok.1 hok.2.1 hi
    | undoing ctx thread source =>
      rw [hst] at hi hok
      exact hboundary ctx thread source hok.1 hok.2.1 hi
    | attaching ctx record =>
      rw [hst] at hi hok
      exact hcandidate ctx record hok.1 hok.2 hi
    | promoting ctx record =>
      rw [hst] at hi hok
      exact hcandidate ctx record hok.1 hok.2.1 hi
    | _ => rw [hst] at hi; cases hi

/-- The candidates of overrides that are not applied are off the canonical chain. -/
structure OffChain (s : System) : Prop where
  anchored : ∀ ov c row, s.Names ov c → s.db.ledger.find ov = some row →
    ∃ r cur, s.db.threads row.threadId = some r ∧ r.row.currentCheckpointId = some cur ∧
      s.db.store (row.threadId, cur) ≠ none
  unique : ∀ ov ov' t c, s.Candidate ov t c → s.Candidate ov' t c → ov = ov'
  below : ∀ ov t c row, s.Candidate ov t c → s.db.ledger.find ov = some row →
    row.status ≠ .applied → ¬ AtOrBelow s.db t c

theorem step_pointer_overrides (ha : a.overrides = true) (hp : Provenance worker s)
    (h : step worker s a = some s') {r r' : ThreadRecord} (hr : s.db.threads t = some r)
    (hr' : s'.db.threads t = some r') :
    r'.row.currentCheckpointId = r.row.currentCheckpointId ∨
      ∃ ov row row' c cur, s.db.ledger.find ov = some row ∧ row.threadId = t ∧
        row.resultCheckpointId = some c ∧ s'.db.ledger.find ov = some row' ∧
        row'.status = .applied ∧ r'.row.currentCheckpointId = some c ∧
        r.row.currentCheckpointId = some cur ∧ ParentIn s.db.store t c cur := by
  obtain ⟨-, -, hpointer⟩ |
    ⟨row, row', r₀, c, hrow, -, hr₀, hres, hsource, hrow', happ, -, -, hthreads⟩ :=
    (step_change_overrides ha h).promotes
  · exact .inl (hpointer t r r' hr hr')
  · obtain ⟨rfl, hc⟩ | ⟨-, hsame⟩ := hthreads t r' hr'
    · rw [hr] at hr₀
      cases hr₀
      obtain ⟨cur, hcur, hlink⟩ := (hp.rows _ row hrow).result_descends hres
      exact .inr ⟨row.overrideId, row, row', c, cur, hrow, rfl, hres, hrow', happ, hc,
        hsource.trans hcur, hlink⟩
    · rw [hr] at hsame
      rw [Option.some.inj hsame]
      exact .inl rfl

theorem step_anchored (ha : a.overrides = true) (hp : Provenance worker s) (ho : s.OffChain)
    (h : step worker s a = some s') (ov c : String) (row' : RuntimeOverride) (hn : s'.Names ov c)
    (hrow' : s'.db.ledger.find ov = some row') :
    ∃ r cur, s'.db.threads row'.threadId = some r ∧ r.row.currentCheckpointId = some cur ∧
      s'.db.store (row'.threadId, cur) ≠ none := by
  have he := step_evolves h
  have hstored : ∀ k, s.db.store k ≠ none → s'.db.store k ≠ none := by
    intro k hk
    obtain ⟨record, hr⟩ := Option.ne_none_iff_exists'.mp hk
    rw [he.store k record hr]
    exact Option.some_ne_none record
  obtain hold | ⟨row₁, r, hrow₁, hr, -, hc⟩ := names_step hp h hn
  · obtain ⟨row, hrow, -⟩ := hp.pinned ov c hold
    obtain ⟨row₁, hrow₁, hcont⟩ := he.rows ov row hrow
    rw [hrow'] at hrow₁
    cases hrow₁
    rw [hcont.request.threadId]
    obtain ⟨r, cur, hr, hcur, hst⟩ := ho.anchored ov c row hold hrow
    obtain ⟨r', hr', -⟩ := he.threads _ r hr
    obtain hsame | ⟨-, -, -, c', -, -, -, -, -, -, hc', -, record, hrecord, -⟩ :=
      step_pointer_overrides ha hp h hr hr'
    · exact ⟨r', cur, hr', hsame.trans hcur, hstored _ hst⟩
    · refine ⟨r', c', hr', hc', hstored _ ?_⟩
      rw [hrecord]
      exact Option.some_ne_none record
  · rw [hrow'] at hrow₁
    cases hrow₁
    exact ⟨r, c, hr, hc, (step_provenance hp h).names_stored hn hrow'⟩

theorem step_unique (ha : a.overrides = true) (hp : Provenance worker s) (ho : s.OffChain)
    (h : step worker s a = some s') (ov ov' t c : String) (hc : s'.Candidate ov t c)
    (hc' : s'.Candidate ov' t c) : ov = ov' := by
  -- A checkpoint that has just been saved was nobody's candidate.
  have hnew : ∀ ov record, s.Candidate ov t c → record.checkpointId = c → record.threadId = t →
      s.db.saveCheckpoint record = some s'.db → False := by
    rintro ov record hold rfl rfl hs
    obtain ⟨hnone, -⟩ := Db.saveCheckpoint_eq_some.mp hs
    exact (hold.known hp).2.2 hnone
  obtain hold | ⟨i, o, ctx, thread, source, record, hact, hst, hov, -, hid, hth, hs⟩ :=
    candidate_step ha hp h hc
  · obtain hold' | ⟨-, -, -, -, -, record, -, -, -, -, hid, hth, hs⟩ := candidate_step ha hp h hc'
    · exact ho.unique ov ov' t c hold hold'
    · exact (hnew ov record hold hid hth hs).elim
  · obtain hold' | ⟨i', o', ctx', thread', source', -, hact', hst', hov', -⟩ :=
      candidate_step ha hp h hc'
    · exact (hnew ov' record hold' hid hth hs).elim
    · rw [hact] at hact'
      cases hact'
      rw [hst] at hst'
      cases hst'
      exact hov.symm.trans hov'

/-- A candidate that is not applied stays off the canonical chain. -/
theorem step_below (ha : a.overrides = true) (hp : Provenance worker s) (ho : s.OffChain)
    (h : step worker s a = some s') (ov t c : String) (row' : RuntimeOverride) (hc : s'.Candidate ov t c)
    (hrow' : s'.db.ledger.find ov = some row') (hne : row'.status ≠ .applied) : ¬ AtOrBelow s'.db t c := by
  have he := step_evolves h
  rintro ⟨r', cur', hr', hcur', hbelow⟩
  obtain hold | ⟨i, o, ctx, thread, source, record, -, hst, rfl, rfl, rfl, hth, hs⟩ :=
    candidate_step ha hp h hc
  · obtain ⟨⟨row, hrow, rfl⟩, ⟨source, hname⟩, hstored⟩ := hold.known hp
    obtain ⟨row₁, hrow₁, hcont⟩ := he.rows ov row hrow
    rw [hrow'] at hrow₁
    cases hrow₁
    have hoff := ho.below ov _ c row hold hrow fun happ => hne (hcont.applied happ)
    obtain ⟨r, cur, hr, hcur, hanchor⟩ := ho.anchored ov source row hname hrow
    obtain hsame | ⟨ov₁, row₁, row₁', c₁, cur₁, hrow₁, hth₁, hres₁, hrow₁', happ₁, hc₁, hcur₁,
      hlink⟩ := step_pointer_overrides ha hp h hr hr'
    · -- The pointer has not moved, and its ancestors are the old ones.
      rw [hcur', hcur] at hsame
      cases hsame
      refine hoff ⟨r, cur', hr, hcur, ?_⟩
      rcases hbelow with heq | hd
      · exact .inl heq
      · exact .inr (descends_back hp.store he.store hanchor hd).1
    · -- The pointer is the result of the override that has just been applied.
      rw [hcur'] at hc₁
      cases hc₁
      have hcand : s.Candidate ov₁ row.threadId cur' := Or.inl ⟨row₁, hrow₁, hth₁, hres₁⟩
      rcases hbelow with rfl | hd
      · obtain rfl := ho.unique ov ov₁ _ _ hold hcand
        rw [hrow'] at hrow₁'
        rw [Option.some.inj hrow₁'] at hne
        exact hne happ₁
      · obtain ⟨hd', -⟩ := descends_back hp.store he.store (hcand.known hp).2.2 hd
        obtain ⟨b, ⟨record, hrecord, hpar⟩, hrest⟩ := Relation.TransGen.head'_iff.mp hd'
        obtain ⟨record₁, hrecord₁, hpar₁⟩ := hlink
        rw [hrecord] at hrecord₁
        cases hrecord₁
        rw [hpar] at hpar₁
        obtain rfl := Option.some.inj hpar₁
        refine hoff ⟨r, b, hr, hcur₁, ?_⟩
        rcases Relation.reflTransGen_iff_eq_or_transGen.mp hrest with heq | hd'
        · exact .inl heq.symm
        · exact .inr hd'
  · -- A checkpoint that has just been saved is above nothing that was stored before.
    have hok := hp.calls i
    rw [hst] at hok
    obtain ⟨⟨row, hrow, hreq⟩, -⟩ := hok
    have hname : s.Names ctx.overrideId source.checkpointId := Or.inr ⟨i, by rw [hst]; rfl⟩
    obtain ⟨r, cur, hr, hcur, hanchor⟩ := ho.anchored _ _ row hname hrow
    rw [hreq.threadId] at hr hanchor
    obtain ⟨hnone, -, hdb⟩ := Db.saveCheckpoint_eq_some.mp hs
    rw [hth] at hnone
    have hsame : r' = r := by
      rw [hdb] at hr'
      have hr₁ : s.db.threads ctx.threadId = some r' := hr'
      rw [hr] at hr₁
      exact (Option.some.inj hr₁).symm
    rw [hsame, hcur] at hcur'
    cases hcur'
    rcases hbelow with rfl | hd
    · exact hanchor hnone
    · exact (descends_back hp.store he.store hanchor hd).2 hnone

theorem step_offChain (ha : a.overrides = true) (hp : Provenance worker s) (ho : s.OffChain)
    (h : step worker s a = some s') : s'.OffChain :=
  ⟨step_anchored ha hp ho h, step_unique ha hp ho h, step_below ha hp ho h⟩

theorem Initial.offChain (h : Initial s) : s.OffChain := by
  have hnone : ∀ ov t c, ¬ s.Candidate ov t c := by
    rintro ov t c (⟨row, hrow, -⟩ | ⟨i, hi⟩)
    · rw [h.find] at hrow
      cases hrow
    · rw [h.calls] at hi
      cases hi
  refine ⟨?_, ?_, ?_⟩
  · intro ov c row _ hrow
    rw [h.find] at hrow
    cases hrow
  · intro ov ov' t c hc
    exact absurd hc (hnone ov t c)
  · intro ov t c row hc
    exact absurd hc (hnone ov t c)

theorem exec_offChain {s₀ : System} (h₀ : Initial s₀)
    (hok : Meets (step worker) (fun _ a => a.overrides = true) s₀ run)
    (hrun : exec (step worker) s₀ run = some s) : s.OffChain :=
  (exec_invariant (I := fun s => Provenance worker s ∧ s.OffChain)
    (fun _ _ _ hs ha hstep => ⟨step_provenance hs.1 hstep, step_offChain ha hs.1 hs.2 hstep⟩) hok hrun
    ⟨h₀.provenance, h₀.offChain⟩).2

end System

end CountyFlow.Override
