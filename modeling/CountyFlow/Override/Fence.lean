import CountyFlow.Override.Chain

/-!
# The fence and the workers

`claim_override_boundary` moves a thread to `OVERRIDING`, and until the same override promotes or
releases, no worker is meant to move it.  `claim_next_node` respects that, since it compares the
status; `promote_checkpoint` compares only the checkpoint and the version, so a worker that read the
thread before the claim can still promote through the fence.
-/

namespace CountyFlow.Override

open CountyFlow.Lib CountyFlow.Core CountyFlow.Runtime

variable {config : RuntimeConfig}

/-! ### Which steps touch threads and fences -/

/-- The thread and the override of a call that is about to take a fence down. -/
def ApplyState.leaves : ApplyState → Option (String × String)
  | .releasing ctx _ | .undoing ctx _ _ | .freeing ctx _ _ | .promoting ctx _ =>
    some (ctx.threadId, ctx.overrideId)
  | _ => none

def ReconcileState.leaves : ReconcileState → Option (String × String)
  | .promoting item _ => some (item.threadId, item.overrideId)
  | _ => none

/-- A fenced thread is made `STABLE` for an override. -/
def TakesDown (db db' : Db) (t ov : String) : Prop :=
  ∃ r r', db.threads t = some r ∧ r.row.status = .overriding ∧ r'.row.status = .stable ∧
    db'.threads = (db.setThread t r').threads ∧ db'.fence = (db.lower t ov).fence

/-- A `STABLE` thread is fenced for an override. -/
def PutsUp (db db' : Db) (t ov : String) : Prop :=
  ∃ r, db.threads t = some r ∧ r.row.status = .stable ∧
    db' = (db.setThread t (r.claimed .overriding none)).raise t ov

variable {db : Db}

theorem fence_lower_congr {db₁ : Db} (h : db₁.fence = db.fence) (t ov : String) :
    (db₁.lower t ov).fence = (db.lower t ov).fence := by
  funext t'
  rw [Db.fence_lower, Db.fence_lower, h]

variable {db' : Db} {t c ov : String} {row : RuntimeThread}

theorem takesDown_release {n : String} {v : ℕ}
    (h : db.releaseOverrideBoundary t c v n ov = .ok (row, db')) : TakesDown db db' t ov := by
  obtain ⟨r, hr, hb, rfl⟩ := Db.releaseOverrideBoundary_ok h
  refine ⟨r, r.released, hr, (ThreadRecord.atBoundary_iff.mp hb).1, rfl, Db.threads_lower _ _ _, ?_⟩
  apply fence_lower_congr
  rfl

variable {commits : Bool} {row' : RuntimeOverride}

theorem takesDown_promote {size now : ℕ} {row : RuntimeOverride} (hrow : db.ledger.find ov = some row)
    (h : db.promoteApplied ov c size now commits = .ok (row', db')) :
    db' = db ∨ TakesDown db db' row.threadId ov := by
  obtain ⟨row₁, hrow₁, hcase⟩ := Db.promoteApplied_ok h
  rw [hrow] at hrow₁
  cases hrow₁
  obtain ⟨-, -, rfl⟩ | ⟨t, ht, hprom, -, -, rfl⟩ := hcase
  · exact .inl rfl
  · obtain ⟨-, -, hs, -⟩ := RuntimeOverride.promotable_iff.mp hprom
    refine .inr ⟨t, applyOverride t row c size, ht, hs, rfl, Db.threads_lower _ _ _, ?_⟩
    apply fence_lower_congr
    rfl

theorem updateRow_quiet {method : RuntimeOverride → Except LedgerError RuntimeOverride}
    (h : db.updateRow ov method = .ok (row', db')) : db'.threads = db.threads ∧ db'.fence = db.fence := by
  obtain ⟨row, -, -, rfl⟩ := Db.updateRow_ok h
  exact ⟨rfl, rfl⟩

theorem close_quiet {w : Closing} {now : ℕ} (h : db.close ov w now = .ok (row', db')) :
    db'.threads = db.threads ∧ db'.fence = db.fence := by
  cases w with
  | finish st d code => exact updateRow_quiet h
  | markPartial code => exact updateRow_quiet h

/-- A call leaves the fences, puts its own up, or takes it down. -/
theorem ApplyState.step_fence {c : ℕ} {o : Outcome} {locks locks' : Locks} {st st' : ApplyState}
    (hok : st.Ok config db) (h : step config c o db locks st = some (st', db', locks')) :
    (db'.threads = db.threads ∧ db'.fence = db.fence) ∨
      (∃ ctx thread source, st = .claiming ctx thread source ∧
        st' = .marking ctx thread source ∧ PutsUp db db' ctx.threadId ctx.overrideId) ∨
      ∃ t ov, st.leaves = some (t, ov) ∧ TakesDown db db' t ov := by
  cases step_moves h with
  | begun hb | repairing hb | recovering hb | answered hb =>
    obtain ⟨-, rfl, -⟩ | ⟨-, -, t, ledger, -, -, -, rfl⟩ := Db.beginOrReplay_ok hb
    · exact .inl ⟨rfl, rfl⟩
    · exact .inl ⟨rfl, rfl⟩
  | released hrel | undone hrel | freed hrel => exact .inr (Or.inr ⟨_, _, rfl, takesDown_release hrel⟩)
  | @claimed ctx thread source row db₁ hclaim =>
    obtain ⟨r, hr, hb, rfl⟩ := Db.claimOverrideBoundary_ok hclaim
    exact .inr (Or.inl ⟨ctx, thread, source, rfl, rfl, r, hr, (ThreadRecord.atBoundary_iff.mp hb).1, rfl⟩)
  | marked hm | attached hm | published hm => exact .inl (updateRow_quiet hm)
  | invalid hs | updated hs =>
    obtain ⟨-, -, rfl⟩ := Db.saveCheckpoint_eq_some.mp hs
    exact .inl ⟨rfl, rfl⟩
  | promoted hp =>
    obtain ⟨⟨row₀, hrow₀, hreq⟩, -⟩ := hok
    obtain rfl | hdown := takesDown_promote hrow₀ hp
    · exact .inl ⟨rfl, rfl⟩
    · rw [hreq.threadId] at hdown
      exact .inr (Or.inr ⟨_, _, rfl, hdown⟩)
  | closed hdb | ended hdb =>
    obtain rfl | ⟨row, hclose⟩ := hdb
    · exact .inl ⟨rfl, rfl⟩
    · exact .inl (close_quiet hclose)
  | _ => exact .inl ⟨rfl, rfl⟩

/-- A reconciliation leaves the fences, or takes one down. -/
theorem ReconcileState.step_fence {o : Outcome} {st st' : ReconcileState} (hok : st.Ok db)
    (h : step config o db st = some (st', db')) :
    (db'.threads = db.threads ∧ db'.fence = db.fence) ∨
      ∃ t ov, st.leaves = some (t, ov) ∧ TakesDown db db' t ov := by
  cases st with
  | idle => cases h
  | done result => cases h
  | crashed => cases h
  | fetching ov => cases h; exact .inl ⟨rfl, rfl⟩
  | comparing item => cases h; exact .inl ⟨rfl, rfl⟩
  | loadingSource item a b => cases h; exact .inl ⟨rfl, rfl⟩
  | loadingResult item a b => cases h; exact .inl ⟨rfl, rfl⟩
  | promoting item result =>
    obtain ⟨⟨-, row, hrow, hcont⟩, -⟩ := hok
    obtain ⟨rfl, rfl⟩ := Prod.mk.inj (Option.some.inj h)
    split
    · exact .inl ⟨rfl, rfl⟩
    · exact .inl ⟨rfl, rfl⟩
    · rename_i hp
      obtain hdb | hdown := takesDown_promote hrow hp
      · exact .inl ⟨congrArg Db.threads hdb, congrArg Db.fence hdb⟩
      · rw [hcont.request.threadId] at hdown
        exact .inr ⟨_, _, rfl, hdown⟩
  | closing ov write =>
    obtain ⟨rfl, rfl⟩ := Prod.mk.inj (Option.some.inj h)
    split
    · exact .inl ⟨rfl, rfl⟩
    · rename_i hc
      exact .inl (close_quiet hc)

/-! ### What a worker step can do to a thread -/

/-- The fields the fence protects are the same. -/
structure SameBoundary (r r' : ThreadRecord) : Prop where
  pointer : r'.row.currentCheckpointId = r.row.currentCheckpointId
  version : r'.row.stateVersion = r.row.stateVersion
  currentNode : r'.row.currentNode = r.row.currentNode
  nextNode : r'.row.nextNode = r.row.nextNode
  status : r'.row.status = r.row.status

theorem SameBoundary.refl (r : ThreadRecord) : SameBoundary r r := ⟨rfl, rfl, rfl, rfl, rfl⟩

/-- `promote_checkpoint` goes through and moves the thread. -/
def Promotes (r : ThreadRecord) (command : PromoteCheckpoint) (commits : Bool) : Prop :=
  r.row.currentCheckpointId ≠ some command.checkpointId ∧ r.row.status ≠ .terminal ∧
    r.row.currentCheckpointId = command.expectedCheckpointId ∧
    r.row.stateVersion = command.expectedStateVersion ∧ r.hasEvent command.eventKey = false ∧
    commits = true

instance (r : ThreadRecord) (command : PromoteCheckpoint) (commits : Bool) :
    Decidable (Promotes r command commits) := instDecidableAnd

variable {r : ThreadRecord}

theorem setThread_boundary {t₀ : String} {r₀ r₀' : ThreadRecord} {P : Prop} (hr₀ : db.threads t₀ = some r₀)
    (hr : db.threads t = some r) (h : t = t₀ → SameBoundary r₀ r₀' ∨ P) :
    ∃ r', (db.setThread t₀ r₀').threads t = some r' ∧ (SameBoundary r r' ∨ P) := by
  rw [Db.threads_setThread]
  by_cases ht : t = t₀
  · rw [if_pos ht]
    rw [ht, hr₀] at hr
    cases hr
    exact ⟨r₀', rfl, h ht⟩
  · rw [if_neg ht]
    exact ⟨r, hr, Or.inl (SameBoundary.refl r)⟩

theorem markResumed_boundary {r' : ThreadRecord} {key w : String}
    (h : r.markResumed key w commits = .ok r') : SameBoundary r r' := by
  obtain rfl | ⟨-, -, hrow, -⟩ := ThreadRecord.markResumed_ok h
  · exact SameBoundary.refl r'
  · exact ⟨by rw [hrow], by rw [hrow], by rw [hrow], by rw [hrow], by rw [hrow]⟩

theorem promoteCheckpoint_boundary {command : PromoteCheckpoint}
    (h : db.promoteCheckpoint command commits = .ok (row, db')) (hr : db.threads t = some r) :
    ∃ r', db'.threads t = some r' ∧
      (SameBoundary r r' ∨ (t = command.threadId ∧ Promotes r command commits)) := by
  obtain ⟨r₀, r₀', hr₀, hm, -, rfl⟩ := Db.updateThread_ok h
  refine setThread_boundary hr₀ hr fun ht => ?_
  obtain ⟨-, rfl⟩ | ⟨h1, h2, h3, h4, h5, h6, -⟩ := ThreadRecord.promoteCheckpoint_ok hm
  · exact .inl (SameBoundary.refl r₀')
  · rw [ht, hr₀] at hr
    cases hr
    exact .inr ⟨ht, h1, h2, h3, h4, h5, h6⟩

namespace WorkerState

/-- A worker moves a boundary only where it is `STABLE`, or by the command in its hands. -/
theorem step_boundary {worker : WorkerConfig} {o : WorkerOutcome} {st st' : WorkerState}
    (h : step worker o db st = some (st', db')) (hr : db.threads t = some r) :
    ∃ r', db'.threads t = some r' ∧
      (SameBoundary r r' ∨ r.row.status = .stable ∨
        ∃ command, st.command = some command ∧ t = command.threadId ∧
          Promotes r command o.commits) := by
  have hquiet : ∃ r', db.threads t = some r' ∧ (SameBoundary r r' ∨ r.row.status = .stable ∨
      ∃ command, st.command = some command ∧ t = command.threadId ∧
        Promotes r command o.commits) := ⟨r, hr, Or.inl (SameBoundary.refl r)⟩
  cases st with
  | idle => cases h
  | finished => cases h
  | fetching t₀ => cases h; exact hquiet
  | listing thread =>
    simp only [step] at h
    split at h
    · cases h; exact hquiet
    · cases h
  | streaming current key => cases h; exact hquiet
  | visiting current nodes =>
    simp only [step] at h
    split at h
    · cases h; exact hquiet
    · cases h
  | reconciling command =>
    obtain ⟨rfl, rfl⟩ := Prod.mk.inj (Option.some.inj h)
    split
    · exact hquiet
    · rename_i hcall
      obtain ⟨r', hr', hcase⟩ := promoteCheckpoint_boundary hcall hr
      refine ⟨r', hr', ?_⟩
      rcases hcase with hsame | ⟨ht, hprom⟩
      · exact .inl hsame
      · exact .inr (Or.inr ⟨command, rfl, ht, hprom⟩)
  | promoting command nodes =>
    obtain ⟨rfl, rfl⟩ := Prod.mk.inj (Option.some.inj h)
    split
    · exact hquiet
    · rename_i hcall
      obtain ⟨r', hr', hcase⟩ := promoteCheckpoint_boundary hcall hr
      refine ⟨r', hr', ?_⟩
      rcases hcase with hsame | ⟨ht, hprom⟩
      · exact .inl hsame
      · exact .inr (Or.inr ⟨command, rfl, ht, hprom⟩)
  | deciding thread =>
    obtain ⟨rfl, rfl⟩ := Prod.mk.inj (Option.some.inj h)
    split
    · exact hquiet
    · split
      · split
        · exact hquiet
        · split
          · exact hquiet
          · rename_i hcall
            obtain ⟨r₀, r₀', hr₀, hm, -, rfl⟩ := Db.updateThread_ok hcall
            refine setThread_boundary hr₀ hr fun ht => Or.inr (Or.inl ?_)
            rw [ht, hr₀] at hr
            cases hr
            exact (ThreadRecord.atBoundary_iff.mp (ThreadRecord.claimBoundary_ok hm).1).1
      · exact hquiet
  | resuming current key nodes =>
    obtain ⟨rfl, rfl⟩ := Prod.mk.inj (Option.some.inj h)
    split
    · exact hquiet
    · rename_i hcall
      obtain ⟨r₀, r₀', hr₀, hm, -, rfl⟩ := Db.updateThread_ok hcall
      exact setThread_boundary hr₀ hr fun _ => Or.inl (markResumed_boundary hm)

end WorkerState

/-! ### The fence over a run -/

variable {s s' : System}

namespace System

variable {worker : WorkerConfig}

/-- A step that leaves a raised fence to its override: a worker's promotion that would go through
meets no fenced thread, and a fence is taken down only for the override that raised it. -/
def Respects (s : System) : Action → Prop
  | .advanceWorker w o => ∀ command ∈ (s.workers w).command,
      s.db.fence command.threadId ≠ none → ∀ r ∈ s.db.threads command.threadId,
        ¬ Promotes r command o.commits
  | .advance c _ => ∀ p ∈ (s.calls c).leaves, s.db.fence p.1 = none ∨ s.db.fence p.1 = some p.2
  | .advanceReconcile r _ =>
    ∀ p ∈ (s.reconciles r).leaves, s.db.fence p.1 = none ∨ s.db.fence p.1 = some p.2
  | _ => True

instance (s : System) : (a : Action) → Decidable (s.Respects a)
  | .advanceWorker w o => inferInstanceAs (Decidable (∀ command ∈ (s.workers w).command,
      s.db.fence command.threadId ≠ none → ∀ r ∈ s.db.threads command.threadId,
        ¬ Promotes r command o.commits))
  | .advance c _ => inferInstanceAs (Decidable
      (∀ p ∈ (s.calls c).leaves, s.db.fence p.1 = none ∨ s.db.fence p.1 = some p.2))
  | .advanceReconcile r _ => inferInstanceAs (Decidable
      (∀ p ∈ (s.reconciles r).leaves, s.db.fence p.1 = none ∨ s.db.fence p.1 = some p.2))
  | .beginApply _ _ | .crash _ | .expireLock _ | .beginReconcile _ _ | .crashReconcile _
  | .beginWorker _ _ | .crashWorker _ | .saveCheckpoint _ | .createThread _ _
  | .terminate _ _ _ _ _ _ _ => isTrue trivial

/-- A fenced thread is `OVERRIDING`, or was terminated under the fence. -/
def Fenced (s : System) : Prop :=
  ∀ t ov, s.db.fence t = some ov →
    ∃ r, s.db.threads t = some r ∧ (r.row.status = .overriding ∨ r.row.status = .terminal)

theorem Fenced.takesDown (hf : s.Fenced) (hdown : TakesDown s.db s'.db t ov)
    (hown : s.db.fence t = none ∨ s.db.fence t = some ov) : s'.Fenced := by
  obtain ⟨r, r', hr, -, -, hthreads, hfence⟩ := hdown
  intro t' ov' ht'
  rw [hfence, Db.fence_lower] at ht'
  split at ht'
  · cases ht'
  · rename_i hother
    have hne : t' ≠ t := by
      rintro rfl
      rcases hown with hown | hown
      · rw [hown] at ht'
        cases ht'
      · exact hother ⟨rfl, hown⟩
    rw [hthreads, Db.threads_setThread, if_neg hne]
    exact hf t' ov' ht'

theorem Fenced.same (hf : s.Fenced)
    (h : s'.db.threads = s.db.threads ∧ s'.db.fence = s.db.fence) : s'.Fenced := by
  intro t ov ht
  rw [h.2] at ht
  rw [h.1]
  exact hf t ov ht

theorem Fenced.putsUp (hf : s.Fenced) (hup : PutsUp s.db s'.db t ov) : s'.Fenced := by
  obtain ⟨r, hr, -, hdb⟩ := hup
  intro t' ov' ht'
  rw [hdb] at ht' ⊢
  rw [Db.threads_raise, Db.threads_setThread]
  by_cases hne : t' = t
  · exact ⟨r.claimed .overriding none, if_pos hne, Or.inl rfl⟩
  · rw [if_neg hne]
    have hold : s.db.fence t' = some ov' := by
      rw [← ht']
      exact (Function.update_of_ne hne _ _).symm
    exact hf t' ov' hold

/-- A fenced thread stays with its override through every step that respects the fence. -/
theorem step_fenced {a : Action} (hp : Provenance worker s) (hf : s.Fenced) (hok : s.Respects a)
    (h : step worker s a = some s') : s'.Fenced := by
  cases a with
  | beginApply c input =>
    simp only [step] at h
    split at h
    · cases h; exact hf
    · cases h
  | advance c o =>
    obtain ⟨⟨st, db, locks⟩, hstep, rfl⟩ := Option.map_eq_some_iff.mp h
    obtain hsame | ⟨ctx, thread, source, -, -, hup⟩ | ⟨t, ov, hleaves, hdown⟩ :=
      ApplyState.step_fence (hp.calls c) hstep
    · exact hf.same hsame
    · exact hf.putsUp hup
    · exact hf.takesDown hdown (hok (t, ov) hleaves)
  | crash c =>
    simp only [step] at h
    split at h
    · cases h; exact hf
    · cases h
  | expireLock t => cases h; exact hf
  | beginReconcile r ov =>
    simp only [step] at h
    split at h
    · cases h; exact hf
    · cases h
  | advanceReconcile r o =>
    obtain ⟨⟨st, db⟩, hstep, rfl⟩ := Option.map_eq_some_iff.mp h
    obtain hsame | ⟨t, ov, hleaves, hdown⟩ := ReconcileState.step_fence (hp.reconciles r) hstep
    · exact hf.same hsame
    · exact hf.takesDown hdown (hok (t, ov) hleaves)
  | crashReconcile r =>
    simp only [step] at h
    split at h
    · cases h; exact hf
    · cases h
  | beginWorker w t =>
    simp only [step] at h
    split at h
    · cases h; exact hf
    · cases h
  | advanceWorker w o =>
    obtain ⟨⟨st, db⟩, hstep, rfl⟩ := Option.map_eq_some_iff.mp h
    intro t ov ht
    have hfence : db.fence = s.db.fence := (WorkerState.step_ok hstep).2.2.1
    have ht₀ : s.db.fence t = some ov := hfence ▸ ht
    obtain ⟨r, hr, hstatus⟩ := hf t ov ht₀
    obtain ⟨r', hr', hsame | hstable | ⟨command, hcmd, rfl, hprom⟩⟩ :=
      WorkerState.step_boundary hstep hr
    · exact ⟨r', hr', by rw [hsame.status]; exact hstatus⟩
    · rw [hstable] at hstatus
      rcases hstatus with hs | hs <;> cases hs
    · have hfenced : s.db.fence command.threadId ≠ none := by
        rw [ht₀]
        exact Option.some_ne_none ov
      exact absurd hprom (hok command hcmd hfenced r hr)
  | crashWorker w => cases h; exact hf
  | saveCheckpoint record =>
    obtain ⟨db, hs, rfl⟩ := Option.map_eq_some_iff.mp h
    obtain ⟨-, -, rfl⟩ := Db.saveCheckpoint_eq_some.mp hs
    exact hf
  | createThread taskId t =>
    obtain ⟨db, hs, rfl⟩ := Option.map_eq_some_iff.mp h
    unfold Db.createThread at hs
    split at hs
    · cases hs
    · rename_i hnone
      cases hs
      intro t' ov' ht'
      obtain ⟨r, hr, hstatus⟩ := hf t' ov' ht'
      refine ⟨r, ?_, hstatus⟩
      show (s.db.setThread t _).threads t' = some r
      rw [Db.threads_setThread, if_neg, hr]
      rintro rfl
      rw [hnone] at hr
      cases hr
  | terminate t key w node code now commits =>
    simp only [step] at h
    cases hm : s.db.markTerminal t key w node code now commits with
    | error e => rw [hm] at h; cases h
    | ok p =>
      rw [hm] at h
      cases h
      obtain ⟨r, r', hr, hmeth, -, hdb⟩ := Db.updateThread_ok hm
      intro t' ov' ht'
      have hdb' : s.db.setThread t r' = p.2 := hdb.symm
      have ht₀ : s.db.fence t' = some ov' := by
        have hp : p.2.fence t' = some ov' := ht'
        rw [hdb] at hp
        exact hp
      obtain ⟨r₁, hr₁, hstatus⟩ := hf t' ov' ht₀
      show ∃ r, p.2.threads t' = some r ∧ _
      rw [← hdb', Db.threads_setThread]
      by_cases hne : t' = t
      · rw [if_pos hne]
        refine ⟨r', rfl, ?_⟩
        rw [hne, hr] at hr₁
        cases hr₁
        obtain ⟨-, rfl⟩ | ⟨-, -, rfl⟩ := ThreadRecord.markTerminal_ok hmeth
        · exact hstatus
        · exact .inr rfl
      · rw [if_neg hne]
        exact ⟨r₁, hr₁, hstatus⟩

theorem exec_fenced {s₀ : System} {run : List Action} (h₀ : Initial s₀)
    (hok : Meets (step worker) Respects s₀ run) (hrun : exec (step worker) s₀ run = some s) :
    Provenance worker s ∧ s.Fenced := by
  have hinit : s₀.Fenced := by
    intro t ov ht
    rw [h₀.fence] at ht
    cases ht
  exact exec_invariant (I := fun s => Provenance worker s ∧ s.Fenced) (fun s a s' hs hr hstep =>
    ⟨step_provenance hs.1 hstep, step_fenced hs.1 hs.2 hr hstep⟩) hok hrun ⟨h₀.provenance, hinit⟩

/-- **The fence excludes workers.**  In a run whose steps respect the fences, no worker step changes
the checkpoint, the version, the nodes or the status of a thread between the claim of an override and
the moment that same override leaves. -/
theorem fence_excludes_workers {s₀ s s' : System} {run : List Action} {w : ℕ} {o : WorkerOutcome}
    {t ov : String} {r : ThreadRecord} (h₀ : Initial s₀)
    (hok : Meets (step worker) Respects s₀ (run ++ [.advanceWorker w o]))
    (hrun : exec (step worker) s₀ run = some s) (hstep : step worker s (.advanceWorker w o) = some s')
    (hfence : s.db.fence t = some ov) (hr : s.db.threads t = some r) :
    ∃ r', s'.db.threads t = some r' ∧ SameBoundary r r' := by
  obtain ⟨hpre, hlast⟩ := meets_append.mp hok
  have hrespect : s.Respects (.advanceWorker w o) := (hlast s hrun).1
  obtain ⟨-, hf⟩ := exec_fenced h₀ hpre hrun
  obtain ⟨r₁, hr₁, hstatus⟩ := hf t ov hfence
  rw [hr] at hr₁
  cases hr₁
  obtain ⟨⟨st, db⟩, hs, rfl⟩ := Option.map_eq_some_iff.mp hstep
  obtain ⟨r', hr', hsame | hstable | ⟨command, hcmd, rfl, hprom⟩⟩ := WorkerState.step_boundary hs hr
  · exact ⟨r', hr', hsame⟩
  · rw [hstable] at hstatus
    rcases hstatus with hs' | hs' <;> cases hs'
  · have hfenced : s.db.fence command.threadId ≠ none := by
      rw [hfence]
      exact Option.some_ne_none ov
    exact absurd hprom (hrespect command hcmd hfenced r hr)

/-! ### Through the fence

A worker has read the `environment` boundary and holds a command for the checkpoint of the next
node.  The override claims the boundary, and the worker's promotion goes through all the same. -/

/-- The checkpoint the graph leaves when it goes on without the override. -/
def bypassRecord : CheckpointRecord := exampleRecord "c7" (some "c4") "capacity" 5 "NORMAL"

/-- A worker reads the boundary, lists `listing`, and the override raises its fence. -/
def toFence (listing : List CheckpointRecord) : List Action :=
  toEnvironment ++
    [.saveCheckpoint bypassRecord, .beginWorker 1 "thread",
      .advanceWorker 1 (workerOutcome [] none false),
      .advanceWorker 1 (workerOutcome listing none true),
      .beginApply 0 (breakdownInput "key-1" (some "capacity"))] ++
    List.replicate 6 (.advance 0 smooth)

/-- A worker that found nothing to reconcile tries to claim the next node, and is refused. -/
theorem fence_excludes_late_claim : ∃ s s' r r',
    exec (step exampleWorker) empty (toFence []) = some s ∧
      step exampleWorker s (.advanceWorker 1 (workerOutcome [] none true)) = some s' ∧
      s.db.fence "thread" = some "override-1" ∧ s.db.threads "thread" = some r ∧
      s'.db.threads "thread" = some r' ∧ SameBoundary r r' := by
  have hrun : ((exec (step exampleWorker) empty (toFence [])).bind fun s =>
      (step exampleWorker s (.advanceWorker 1 (workerOutcome [] none true))).bind fun s' =>
        (s.db.threads "thread").map fun r =>
          decide (s.db.fence "thread" = some "override-1")) = some true := by
    decide +kernel
  have hok : Meets (step exampleWorker) Respects empty
      (toFence [] ++ [.advanceWorker 1 (workerOutcome [] none true)]) := by
    decide +kernel
  obtain ⟨s, hs, hrun⟩ := Option.bind_eq_some_iff.mp hrun
  obtain ⟨s', hs', hrun⟩ := Option.bind_eq_some_iff.mp hrun
  obtain ⟨r, hr, hf⟩ := Option.map_eq_some_iff.mp hrun
  have hfence := of_decide_eq_true hf
  obtain ⟨r', hr', hsame⟩ :=
    fence_excludes_workers empty_genesis.toInitial hok hs hs' hfence hr
  exact ⟨s, s', r, r', hs, hs', hfence, hr, hr', hsame⟩

/-- **A worker promotes through the fence.** -/
theorem worker_promotes_through_fence :
    ¬ ∀ (run : List Action) (s s' : System) (w : ℕ) (o : WorkerOutcome) (t ov : String)
        (r r' : ThreadRecord), exec (step exampleWorker) empty run = some s →
      step exampleWorker s (.advanceWorker w o) = some s' → s.db.fence t = some ov →
      s.db.threads t = some r → s'.db.threads t = some r' → SameBoundary r r' := by
  intro hkeeps
  have hrun : ((exec (step exampleWorker) empty (toFence [bypassRecord])).bind fun s =>
      (step exampleWorker s (.advanceWorker 1 (workerOutcome [] none true))).bind fun s' =>
        (s.db.threads "thread").bind fun r => (s'.db.threads "thread").map fun r' =>
          decide (s.db.fence "thread" = some "override-1" ∧ r.row.status = .overriding ∧
            r'.row.status = .stable)) = some true := by
    decide +kernel
  obtain ⟨s, hs, hrun⟩ := Option.bind_eq_some_iff.mp hrun
  obtain ⟨s', hs', hrun⟩ := Option.bind_eq_some_iff.mp hrun
  obtain ⟨r, hr, hrun⟩ := Option.bind_eq_some_iff.mp hrun
  obtain ⟨r', hr', hrun⟩ := Option.map_eq_some_iff.mp hrun
  obtain ⟨hfence, hbefore, hafter⟩ := of_decide_eq_true hrun
  have hstatus := (hkeeps _ s s' 1 _ "thread" "override-1" r r' hs hs' hfence hr hr').status
  rw [hbefore, hafter] at hstatus
  cases hstatus

end System

end CountyFlow.Override
