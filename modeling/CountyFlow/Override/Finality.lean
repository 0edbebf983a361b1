import CountyFlow.Override.Recovery
import CountyFlow.Override.Results

/-!
# Final outcomes

`finish` and `mark_partial` leave only an `APPLIED` row alone, so that any other outcome is final only
as long as nobody writes it again.  Who might is a matter of overlap: two calls of one key that both
found the row unfinished will both finish it, in any order and with different answers.
-/

namespace CountyFlow.Override

open CountyFlow.Lib CountyFlow.Core CountyFlow.Runtime Function

variable {config : RuntimeConfig}

/-! ### Writers -/

/-- The statuses a call relies on while it may still write its row. -/
def ApplyState.expects : ApplyState → List RuntimeOverrideStatus
  | .requesting _ | .loading _ | .reading _ _ | .claiming _ _ _ | .marking _ _ _ => [.pending]
  | .updating _ _ _ | .undoing _ _ _ | .attaching _ _ | .promoting _ _ | .recovering _ _
  | .releasing _ _ | .closing _ (.markPartial _) _ => [.applying]
  | .closing _ (.finish _ _ _) _ => [.pending, .applying]
  | .idle | .entered _ | .reserving _ _ | .publishing _ | .leaving _ _ _ | .inspecting _ _
  | .freeing _ _ _ | .done _ | .crashed => []

/-- The outcome has not been decided. -/
def RuntimeOverrideStatus.unfinished (status : RuntimeOverrideStatus) : Prop :=
  status = .pending ∨ status = .applying

variable {st : ApplyState}

theorem ApplyState.expects_unfinished {status : RuntimeOverrideStatus}
    (h : status ∈ st.expects) : status.unfinished := by
  cases st with
  | closing ctx w locked =>
    cases w with
    | finish st d code =>
      rcases List.mem_cons.mp h with h | h
      · exact .inl h
      · exact .inr (List.mem_singleton.mp h)
    | markPartial code => exact .inr (List.mem_singleton.mp h)
  | requesting ctx => exact .inl (List.mem_singleton.mp h)
  | loading ctx => exact .inl (List.mem_singleton.mp h)
  | reading ctx thread => exact .inl (List.mem_singleton.mp h)
  | claiming ctx thread source => exact .inl (List.mem_singleton.mp h)
  | marking ctx thread source => exact .inl (List.mem_singleton.mp h)
  | updating ctx thread source => exact .inr (List.mem_singleton.mp h)
  | undoing ctx thread source => exact .inr (List.mem_singleton.mp h)
  | attaching ctx record => exact .inr (List.mem_singleton.mp h)
  | promoting ctx record => exact .inr (List.mem_singleton.mp h)
  | recovering ctx stored => exact .inr (List.mem_singleton.mp h)
  | releasing ctx stored => exact .inr (List.mem_singleton.mp h)
  | _ => cases h

theorem ApplyState.writes_of_expects_nil {row row' : RuntimeOverride} (hw : st.Writes row row')
    (h : st.expects = []) :
    row'.status = row.status ∧ row'.decision = row.decision ∧ row'.errorCode = row.errorCode ∧
      row'.afterStateVersion = row.afterStateVersion := by
  cases hw with
  | same => exact ⟨rfl, rfl, rfl, rfl⟩
  | published => exact ⟨rfl, rfl, rfl, rfl⟩
  | marked hp => cases h
  | attached hp => cases h
  | promoted hp => cases h
  | finished => cases h
  | setPartial => cases h

variable {c : ℕ} {o : Outcome} {db db' : Db} {locks locks' : Locks} {ov : String}

/-- A writer moves its row to a status that its next state expects. -/
theorem ApplyState.step_expects {st' : ApplyState} {row row' : RuntimeOverride}
    (h : step config c o db locks st = some (st', db', locks')) (hov : st.override = some ov)
    (hrow : db.ledger.find ov = some row) (hexp : row.status ∈ st.expects)
    (hrow' : db'.ledger.find ov = some row') (hwriter : st'.expects ≠ []) : row'.status ∈ st'.expects := by
  have hsame : db'.ledger = db.ledger → row.status ∈ st'.expects → row'.status ∈ st'.expects := by
    intro hledger hnext
    rw [hledger, hrow] at hrow'
    exact Option.some.inj hrow' ▸ hnext
  cases step_moves h with
  | refused | entered | unreserved | begun | repairing | recovering | answered => cases hov
  | unpublished | published | left | inspecting | settled | overriding | unfreed | freed => cases hexp
  | unlocked | unmarked | failed | stuck | unattached | unpromoted | promoted | closed | ended =>
    exact absurd rfl hwriter
  | unfenced | fenced | unreleased | locked | loaded | allowed | unavailable | conflicting =>
    refine hsame rfl ?_
    rw [List.mem_singleton.mp hexp]
    simp [interrupted, Closing.failed, expects]
  | released hrel | undone hrel =>
    refine hsame (Db.ledger_releaseOverrideBoundary hrel) ?_
    rw [List.mem_singleton.mp hexp]
    simp [interrupted, Closing.failed, expects]
  | @busy ctx w hw | @unfit ctx w hw | @declined ctx thread w hw | @unclaimed ctx thread source w hw =>
    refine hsame rfl ?_
    rw [List.mem_singleton.mp hexp]
    cases w with
    | finish st d code => simp [expects]
    | markPartial code => cases hw
  | claimed hclaim =>
    refine hsame (Db.ledger_claimOverrideBoundary hclaim) ?_
    rw [List.mem_singleton.mp hexp]
    simp [expects]
  | marked hm =>
    cases hov
    rw [Db.markApplying_found hm] at hrow'
    obtain ⟨row₂, hrow₂, hmeth, -⟩ := Db.updateRow_ok hm
    rw [← Option.some.inj hrow']
    obtain ⟨hs, rfl⟩ | ⟨-, rfl⟩ := RuntimeOverride.markApplying_ok hmeth
    · simp [expects, hs]
    · simp [expects]
  | invalid hs | updated hs =>
    obtain ⟨-, -, rfl⟩ := Db.saveCheckpoint_eq_some.mp hs
    refine hsame rfl ?_
    rw [List.mem_singleton.mp hexp]
    simp [expects]
  | attached ha =>
    cases hov
    rw [Db.attachResultCheckpoint_found ha] at hrow'
    obtain ⟨row₂, hrow₂, hmeth, -⟩ := Db.updateRow_ok ha
    rw [← Option.some.inj hrow']
    obtain ⟨hs, -, rfl⟩ := RuntimeOverride.attachResultCheckpoint_ok hmeth
    simp [expects, hs]

theorem ApplyState.step_expects_nil {st' : ApplyState}
    (h : step config c o db locks st = some (st', db', locks')) (hov : st.override = some ov)
    (hnil : st.expects = []) : st'.expects = [] := by
  cases step_moves h with
  | refused | entered | unreserved | begun | repairing | recovering | answered => cases hov
  | unpublished | published | closed | ended | left | inspecting | settled | overriding | unfreed
      | freed => rfl
  | _ => cases hnil

/-! ### Reconciliations -/

/-- What a reconciliation may find its row to be: still `PARTIAL`, or settled by another one. -/
def Reconciled (row : RuntimeOverride) : Prop :=
  row.status = .partiallyDone ∨ row.status = .applied ∨
    (row.status = .conflict ∧ row.decision = some .needsDifferentBoundary ∧
      row.errorCode = some "RUNTIME_STATE_VERSION_CONFLICT")

theorem Reconciled.not_unfinished {row : RuntimeOverride} (h : Reconciled row) : ¬ row.status.unfinished := by
  rintro (hs | hs)
  · rcases h with h | h | ⟨h, -⟩ <;> rw [hs] at h <;> cases h
  · rcases h with h | h | ⟨h, -⟩ <;> rw [hs] at h <;> cases h

theorem Reconciled.same {row row' : RuntimeOverride} (h : Reconciled row) (hs : row'.status = row.status)
    (hd : row'.decision = row.decision) (he : row'.errorCode = row.errorCode) : Reconciled row' := by
  unfold Reconciled
  rw [hs, hd, he]
  exact h

def ReconcileState.Settled (db : Db) : ReconcileState → Prop
  | .comparing item | .loadingSource item _ _ | .loadingResult item _ _ | .promoting item _ =>
    item.resultCheckpointId ≠ none ∧
      ∃ row, db.ledger.find item.overrideId = some row ∧ Reconciled row
  | .closing ov w => w = .conflict "RUNTIME_STATE_VERSION_CONFLICT" ∧
      ∃ row, db.ledger.find ov = some row ∧ Reconciled row
  | .idle | .fetching _ | .done _ | .crashed => True

theorem ReconcileState.Settled.row {st : ReconcileState} (h : st.Settled db)
    (hov : st.override = some ov) : ∃ row, db.ledger.find ov = some row ∧ Reconciled row := by
  cases st with
  | comparing item => cases hov; exact h.2
  | loadingSource item a b => cases hov; exact h.2
  | loadingResult item a b => cases hov; exact h.2
  | promoting item result => cases hov; exact h.2
  | closing ov w => cases hov; exact h.2
  | _ => cases hov

theorem ReconcileState.Settled.mono {st : ReconcileState} (h : st.Settled db)
    (hrows : ∀ ov row, st.override = some ov → db.ledger.find ov = some row → Reconciled row →
      ∃ row', db'.ledger.find ov = some row' ∧ Reconciled row') : st.Settled db' := by
  cases st with
  | comparing item =>
    obtain ⟨hres, row, hrow, hrec⟩ := h
    exact ⟨hres, hrows _ row rfl hrow hrec⟩
  | loadingSource item a b =>
    obtain ⟨hres, row, hrow, hrec⟩ := h
    exact ⟨hres, hrows _ row rfl hrow hrec⟩
  | loadingResult item a b =>
    obtain ⟨hres, row, hrow, hrec⟩ := h
    exact ⟨hres, hrows _ row rfl hrow hrec⟩
  | promoting item result =>
    obtain ⟨hres, row, hrow, hrec⟩ := h
    exact ⟨hres, hrows _ row rfl hrow hrec⟩
  | closing ov w =>
    obtain ⟨hw, row, hrow, hrec⟩ := h
    exact ⟨hw, hrows _ row rfl hrow hrec⟩
  | _ => trivial

theorem ReconcileState.writes_reconciled {st : ReconcileState} {row row' : RuntimeOverride}
    (hw : st.Writes row row') (hrec : Reconciled row)
    (hclosing : ∀ ov w, st = .closing ov w → w = .conflict "RUNTIME_STATE_VERSION_CONFLICT") :
    Reconciled row' ∧ (row.status.final = true → row'.status = row.status ∧
      row'.decision = row.decision ∧ row'.errorCode = row.errorCode ∧
      row'.afterStateVersion = row.afterStateVersion) := by
  cases hw with
  | same => exact ⟨hrec, fun _ => ⟨rfl, rfl, rfl, rfl⟩⟩
  | promoted hs =>
    refine ⟨Or.inr (Or.inl rfl), fun hf => ?_⟩
    rcases hs with hs | hs <;> rw [hs] at hf <;> cases hf
  | setPartial => cases hclosing _ _ rfl
  | finished =>
    cases hclosing _ _ rfl
    unfold RuntimeOverride.finish
    split
    · exact ⟨hrec, fun _ => ⟨rfl, rfl, rfl, rfl⟩⟩
    · rename_i happ
      refine ⟨Or.inr (Or.inr ⟨rfl, rfl, rfl⟩), fun hf => ?_⟩
      rcases hrec with h | h | ⟨h, hd, he⟩
      · rw [h] at hf
        cases hf
      · exact absurd h happ
      · exact ⟨h.symm, hd.symm, he.symm, rfl⟩

def RuntimeOverride.outcome (row : RuntimeOverride) :
    RuntimeOverrideStatus × Option RuntimeOverrideDecision × Option String × Option ℕ :=
  (row.status, row.decision, row.errorCode, row.afterStateVersion)

theorem RuntimeOverride.outcome_eq {row row' : RuntimeOverride} (hs : row'.status = row.status)
    (hd : row'.decision = row.decision) (he : row'.errorCode = row.errorCode)
    (hv : row'.afterStateVersion = row.afterStateVersion) : row'.outcome = row.outcome := by
  unfold outcome
  rw [hs, hd, he, hv]

variable {s s' : System} {stored : RuntimeOverride} {replayed : Bool} {ctx : ApplyContext} {i : ℕ}
  {run : List Action} {a : Action}

namespace System

variable {worker : WorkerConfig}

/-! ### The invariant -/

/-- The steps of calls and reconciliations in which a request whose row is unfinished is not replayed
under a call that may still write that row. -/
def Exclusive (s : System) : Action → Prop
  | .advance c _ => ∀ input command, s.calls c = .reserving input command →
      ∀ row, s.db.byKey command.idempotencyKey = some row → row.status.unfinished →
        ∀ c', (s.calls c').expects ≠ [] → (s.calls c').override ≠ some row.overrideId
  | a => a.overrides = true

/-- Every writer is alone with its row, and the row is as it expects. -/
structure Settled (s : System) : Prop where
  alone : ∀ c ov, (s.calls c).override = some ov → (s.calls c).expects ≠ [] →
    (∃ row, s.db.ledger.find ov = some row ∧ row.status ∈ (s.calls c).expects) ∧
      ∀ c', (s.calls c').override = some ov → (s.calls c').expects ≠ [] → c' = c
  attached : ∀ ov row, s.db.ledger.find ov = some row → row.status = .partiallyDone →
    row.resultCheckpointId ≠ none
  closing : ∀ c ctx code locked, s.calls c = .closing ctx (.markPartial code) locked →
    ∃ row, s.db.ledger.find ctx.overrideId = some row ∧ row.resultCheckpointId ≠ none
  reconciles : ∀ i, (s.reconciles i).Settled s.db

theorem reserved_exclusive {input : ApplyInput} {command : RuntimeOverrideCommand} (hp : Provenance worker s)
    (hok : s.Exclusive (.advance c o)) (hst : s.calls c = .reserving input command)
    (hb : s.db.beginOrReplay command (command.requestedAt + intentTtl) = .ok (stored, replayed, db))
    (hunfinished : stored.status.unfinished) (c' : ℕ) (hwriter : (s.calls c').expects ≠ []) :
    (s.calls c').override ≠ some stored.overrideId := by
  obtain ⟨rfl, rfl, hkey, -⟩ | ⟨-, -, t, ledger, -, rfl, hadd, rfl⟩ := Db.beginOrReplay_ok hb
  · exact hok input command hst stored hkey hunfinished c' hwriter
  · intro hc'
    obtain ⟨row, hrow⟩ := hp.override_row hc'
    rw [Table.find_none_of_add hadd] at hrow
    cases hrow

theorem resumeFrom_expects (hnew : replayed = false → stored.status = .pending)
    (hwriter : (ApplyState.resumeFrom ctx stored replayed).expects ≠ []) :
    stored.status ∈ (ApplyState.resumeFrom ctx stored replayed).expects := by
  obtain ⟨hpending, hr⟩ | ⟨hs, -, hr⟩ | ⟨hs, -, hr⟩ | hr :=
    ApplyState.resumeFrom_cases ctx stored replayed
  · have hs : stored.status = .pending := hpending.elim hnew id
    rw [hr, hs]
    simp [ApplyState.expects]
  · rw [hr, hs]
    simp [ApplyState.expects]
  · rw [hr, hs]
    simp [ApplyState.expects]
  · rw [hr] at hwriter
    exact absurd rfl hwriter

theorem beginOrReplay_row {c : RuntimeOverrideCommand} {expires : ℕ} {row : RuntimeOverride}
    (h : db.beginOrReplay c expires = .ok (row, replayed, db')) :
    db'.ledger.find row.overrideId = some row ∧ (replayed = false → row.status = .pending) := by
  obtain ⟨rfl, rfl, hkey, -⟩ | ⟨-, -, t, ledger, -, rfl, hadd, rfl⟩ := Db.beginOrReplay_ok h
  · exact ⟨(Db.byKey_eq_some hkey).1, fun h => by cases h⟩
  · refine ⟨?_, fun _ => rfl⟩
    show ledger.find _ = _
    rw [Table.find_add hadd, if_pos rfl]

theorem call_row_same (h : ApplyState.step worker.runtime c o s.db s.locks (s.calls c) = some (st, db, locks))
    {row : RuntimeOverride} (hrow : s.db.ledger.find ov = some row)
    (hother : (s.calls c).override = some ov → (s.calls c).expects = []) :
    ∃ row', db.ledger.find ov = some row' ∧ row'.status = row.status ∧
      row'.decision = row.decision ∧ row'.errorCode = row.errorCode ∧
      row'.afterStateVersion = row.afterStateVersion := by
  obtain ⟨row', hrow', -⟩ := (ApplyState.step_evolves h).rows ov row hrow
  refine ⟨row', hrow', ?_⟩
  obtain ⟨row₁, hrow₁, -, rfl | ⟨hov, hw⟩⟩ | ⟨input, command, taskId, -, hnone, -⟩ := call_row h hrow'
  · rw [hrow] at hrow₁
    cases hrow₁
    exact ⟨rfl, rfl, rfl, rfl⟩
  · rw [hrow] at hrow₁
    cases hrow₁
    exact ApplyState.writes_of_expects_nil hw (hother hov)
  · rw [hrow] at hnone
    cases hnone

/-- An override that is being written has one writer, which knows its status. -/
theorem advance_alone (hp : Provenance worker s) (ho : s.Settled) (hok : s.Exclusive (.advance c o))
    (h : ApplyState.step worker.runtime c o s.db s.locks (s.calls c) = some (st, db, locks)) (c' : ℕ)
    (ov : String) (hov : (update s.calls c st c').override = some ov)
    (hwriter : (update s.calls c st c').expects ≠ []) :
    (∃ row, db.ledger.find ov = some row ∧
        row.status ∈ (update s.calls c st c').expects) ∧
      ∀ c'', (update s.calls c st c'').override = some ov →
        (update s.calls c st c'').expects ≠ [] → c'' = c' := by
  by_cases hc : c' = c
  · subst hc
    rw [update_self] at hov hwriter ⊢
    obtain hold | ⟨input, command, stored, replayed, hst, hb, rfl, rfl⟩ :=
      ApplyState.step_override h hov
    · -- A writer was a writer before: nothing turns a non-writer into one.
      have hwas : (s.calls c').expects ≠ [] := by
        intro hnil
        exact hwriter (ApplyState.step_expects_nil h hold hnil)
      obtain ⟨⟨row, hrow, hexp⟩, halone⟩ := ho.alone c' ov hold hwas
      obtain ⟨row', hrow', -⟩ := (ApplyState.step_evolves h).rows ov row hrow
      refine ⟨⟨row', hrow', ApplyState.step_expects h hold hrow hexp hrow' hwriter⟩, ?_⟩
      intro c'' hc'' hw''
      by_cases hne : c'' = c'
      · exact hne
      · rw [update_of_ne hne] at hc'' hw''
        exact halone c'' hc'' hw''
    · obtain ⟨hfound, hnew⟩ := beginOrReplay_row hb
      have hexp := resumeFrom_expects hnew hwriter
      refine ⟨⟨stored, hfound, hexp⟩, fun c'' hc'' hw'' => ?_⟩
      by_cases hne : c'' = c'
      · exact hne
      · rw [update_of_ne hne] at hc'' hw''
        exact absurd hc'' (reserved_exclusive hp hok hst hb (ApplyState.expects_unfinished hexp) c''
          hw'')
  · rw [update_of_ne hc] at hov hwriter ⊢
    obtain ⟨⟨row, hrow, hexp⟩, halone⟩ := ho.alone c' ov hov hwriter
    have hother : (s.calls c).override = some ov → (s.calls c).expects = [] := by
      intro hcov
      by_contra hw
      exact hc (halone c hcov hw).symm
    obtain ⟨row', hrow', hs, -⟩ := call_row_same h hrow hother
    refine ⟨⟨row', hrow', by rw [hs]; exact hexp⟩, fun c'' hc'' hw'' => ?_⟩
    by_cases hne : c'' = c
    · subst hne
      rw [update_self] at hc'' hw''
      obtain hold | ⟨input, command, stored, replayed, hst, hb, rfl, -⟩ :=
        ApplyState.step_override h hc''
      · refine absurd (ApplyState.step_expects_nil h hold (hother hold)) hw''
      · obtain ⟨hfound, -⟩ := beginOrReplay_row hb
        have hsame : stored.status = row.status := by
          rw [hrow'] at hfound
          rw [← Option.some.inj hfound, hs]
        have hunfinished : stored.status.unfinished := by
          rw [hsame]
          exact ApplyState.expects_unfinished hexp
        exact absurd hov (reserved_exclusive hp hok hst hb hunfinished c' hwriter)
    · rw [update_of_ne hne] at hc'' hw''
      exact halone c'' hc'' hw''

theorem step_markPartial {code : String} {locked : Bool} (hp : Provenance worker s)
    (h : ApplyState.step worker.runtime c o s.db s.locks (s.calls c) =
      some (.closing ctx (.markPartial code) locked, db, locks)) :
    ∃ row, db.ledger.find ctx.overrideId = some row ∧ row.resultCheckpointId ≠ none := by
  have hok := hp.calls c
  generalize s.calls c = st₀ at h hok
  cases ApplyState.step_moves h with
  | repairing hb hs hres => exact ⟨_, (beginOrReplay_row hb).1, hres⟩
  | busy hw | unfit hw | declined hw | unclaimed hw => cases hw
  | conflicting =>
    obtain ⟨-, -, row, hrow, hres⟩ := hok
    exact ⟨row, hrow, by rw [hres]; exact Option.some_ne_none _⟩

theorem advance_settled (hp : Provenance worker s) (ho : s.Settled) (hok : s.Exclusive (.advance c o))
    (h : step worker s (.advance c o) = some s') : s'.Settled := by
  obtain ⟨⟨st, db, locks⟩, hstep, rfl⟩ := Option.map_eq_some_iff.mp h
  have he := ApplyState.step_evolves hstep
  refine ⟨advance_alone hp ho hok hstep, ?_, ?_, ?_⟩
  · intro ov row' hrow' hs
    obtain ⟨row, hrow, -, rfl | ⟨hov, hw⟩⟩ | ⟨input, command, taskId, -, -, -, rfl⟩ :=
      call_row hstep hrow'
    · exact ho.attached ov _ hrow hs
    · refine writes_partial hw (fun ctx code locked hst => ?_) (ho.attached ov row hrow) hs
      obtain ⟨row₁, hrow₁, hres⟩ := ho.closing c ctx code locked hst
      rw [hst] at hov
      cases hov
      rw [hrow] at hrow₁
      cases hrow₁
      exact hres
    · cases hs
  · intro c' ctx code locked hc'
    have hc₁ : update s.calls c st c' = .closing ctx (.markPartial code) locked := hc'
    by_cases hne : c' = c
    · subst hne
      rw [update_self] at hc₁
      subst hc₁
      exact step_markPartial hp hstep
    · rw [update_of_ne hne] at hc₁
      obtain ⟨row, hrow, hres⟩ := ho.closing c' ctx code locked hc₁
      obtain ⟨row', hrow', hcont⟩ := he.rows _ row hrow
      obtain ⟨r, hr⟩ := Option.ne_none_iff_exists'.mp hres
      exact ⟨row', hrow', by rw [hcont.result r hr]; exact Option.some_ne_none r⟩
  · intro i
    refine (ho.reconciles i).mono fun ov row _ hrow hrec => ?_
    have hother : (s.calls c).override = some ov → (s.calls c).expects = [] := by
      intro hcov
      by_contra hw
      obtain ⟨⟨row₁, hrow₁, hexp⟩, -⟩ := ho.alone c ov hcov hw
      rw [hrow] at hrow₁
      cases hrow₁
      exact hrec.not_unfinished (ApplyState.expects_unfinished hexp)
    obtain ⟨row', hrow', hs, hd, hcode, -⟩ := call_row_same hstep hrow hother
    exact ⟨row', hrow', hrec.same hs hd hcode⟩

variable {st : ReconcileState}

/-- What a reconciliation carries still agrees with its row. -/
theorem step_reconcile_settled (hp : Provenance worker s) (ho : s.Settled)
    (h : ReconcileState.step worker.runtime o s.db (s.reconciles i) = some (st, db))
    (hrows : ∀ ov row, (s.reconciles i).override = some ov → s.db.ledger.find ov = some row →
      Reconciled row → ∃ row', db.ledger.find ov = some row' ∧ Reconciled row') :
    st.Settled db := by
  have hsettled := (ho.reconciles i).mono hrows
  have hok := hp.reconciles i
  cases hst : s.reconciles i with
  | idle => rw [hst] at h; cases h
  | done result => rw [hst] at h; cases h
  | crashed => rw [hst] at h; cases h
  | fetching ov =>
    rw [hst] at h
    cases h
    unfold ReconcileState.fetch
    split
    · trivial
    · rename_i item hitem
      split
      · rename_i hs
        have hid := Table.find_key hitem
        refine ⟨ho.attached ov item hitem hs, item, ?_, Or.inl hs⟩
        show s.db.ledger.find item.overrideId = some item
        rw [show item.overrideId = ov from hid]
        exact hitem
      · trivial
  | comparing item =>
    rw [hst] at h hok hsettled
    cases h
    obtain ⟨hres, hrow⟩ := hsettled
    obtain ⟨resultId, hresult⟩ := Option.ne_none_iff_exists'.mp hres
    obtain ⟨hincomplete, row, hfound, hcont⟩ := hok
    obtain ⟨source, result, hsource, -⟩ := (hp.rows _ row hfound).result resultId
      (hcont.result resultId hresult)
    have hitem : item.sourceCheckpointId = some source.checkpointId := by
      rw [← (hcont.source (by rw [hincomplete]; decide)).2, hsource]
    unfold ReconcileState.compare
    split
    · exact ⟨rfl, hrow⟩
    · split
      · exact ⟨rfl, hrow⟩
      · rw [hitem, hresult]
        exact ⟨hres, hrow⟩
  | loadingSource item a b =>
    rw [hst] at h hsettled
    cases h
    unfold ReconcileState.loadSource
    split
    · trivial
    · exact hsettled
  | loadingResult item source resultId =>
    rw [hst] at h hok hsettled
    cases h
    obtain ⟨⟨hincomplete, row, hfound, hcont⟩, hresult, record, rfl, hrecord, hstored⟩ := hok
    obtain ⟨source, result, hsource, hsok, hstoredResult, hvalid⟩ :=
      (hp.rows _ row hfound).result resultId (hcont.result resultId hresult)
    have hthread : item.threadId = row.threadId := hcont.request.threadId.symm
    have hsame : source = record := by
      have hid : source.checkpointId = record.checkpointId := by
        rw [(hcont.source (by rw [hincomplete]; decide)).2, hrecord] at hsource
        exact (Option.some.inj hsource).symm
      have hst := hsok.stored
      rw [hid, ← hthread, hstored] at hst
      exact (Option.some.inj hst).symm
    subst hsame
    rw [candidateValid_same hcont.request] at hvalid
    unfold ReconcileState.loadResult
    split
    · trivial
    · rw [hthread, hstoredResult]
      simp only [hvalid, if_true]
      exact hsettled
  | promoting item result =>
    rw [hst] at h hsettled
    obtain ⟨rfl, rfl⟩ := Prod.mk.inj (Option.some.inj h)
    split
    · rename_i herror
      simp only [herror] at hsettled
      exact ⟨rfl, hsettled.2⟩
    · trivial
    · trivial
  | closing ov write =>
    rw [hst] at h
    obtain ⟨rfl, rfl⟩ := Prod.mk.inj (Option.some.inj h)
    split
    · trivial
    · trivial

theorem reconcile_row_same (ho : s.Settled)
    (h : ReconcileState.step worker.runtime o s.db (s.reconciles i) = some (st, db)) {row : RuntimeOverride}
    (hrow : s.db.ledger.find ov = some row) :
    ∃ row', db.ledger.find ov = some row' ∧ row.Continues row' ∧ (row' = row ∨
      (Reconciled row ∧ Reconciled row' ∧ (row.status.final = true → row'.status = row.status ∧
        row'.decision = row.decision ∧ row'.errorCode = row.errorCode ∧
        row'.afterStateVersion = row.afterStateVersion))) := by
  have hchange : Db.Change (fun _ => False) s.db db := ReconcileState.step_change h
  obtain ⟨row', hrow', hcont⟩ := hchange.evolves.rows ov row hrow
  refine ⟨row', hrow', hcont, ?_⟩
  obtain ⟨row₁, hrow₁, -, hsame | ⟨hov, hw⟩⟩ := reconcile_row h hrow'
  · rw [hrow] at hrow₁
    exact .inl (hsame.trans (Option.some.inj hrow₁).symm)
  · rw [hrow] at hrow₁
    cases hrow₁
    obtain ⟨row₂, hrow₂, hrec⟩ := (ho.reconciles i).row hov
    rw [hrow] at hrow₂
    cases hrow₂
    refine .inr ⟨hrec, ReconcileState.writes_reconciled hw hrec fun ov₁ w hst => ?_⟩
    have hsettled := ho.reconciles i
    rw [hst] at hsettled
    exact hsettled.1

theorem reconcile_settled (hp : Provenance worker s) (ho : s.Settled)
    (h : step worker s (.advanceReconcile i o) = some s') : s'.Settled := by
  obtain ⟨⟨st, db⟩, hstep, rfl⟩ := Option.map_eq_some_iff.mp h
  have hrows : ∀ ov row, s.db.ledger.find ov = some row → Reconciled row →
      ∃ row', db.ledger.find ov = some row' ∧ Reconciled row' := by
    intro ov row hrow hrec
    obtain ⟨row', hrow', -, rfl | ⟨-, hrec', -⟩⟩ := reconcile_row_same ho hstep hrow
    · exact ⟨row', hrow', hrec⟩
    · exact ⟨row', hrow', hrec'⟩
  refine ⟨?_, ?_, ?_, ?_⟩
  · intro c ov hov hwriter
    obtain ⟨⟨row, hrow, hexp⟩, halone⟩ := ho.alone c ov hov hwriter
    refine ⟨?_, halone⟩
    obtain ⟨row', hrow', -, rfl | ⟨hrec, -⟩⟩ := reconcile_row_same ho hstep hrow
    · exact ⟨row', hrow', hexp⟩
    · exact absurd (ApplyState.expects_unfinished hexp) hrec.not_unfinished
  · intro ov row' hrow' hs
    obtain ⟨row, hrow, -, rfl | ⟨hov, hw⟩⟩ := reconcile_row hstep hrow'
    · exact ho.attached ov _ hrow hs
    · refine reconcile_writes_partial hw (fun ov₁ code hst => ?_) (ho.attached ov row hrow) hs
      have hsettled := ho.reconciles i
      rw [hst] at hsettled
      cases hsettled.1
  · intro c ctx code locked hc
    obtain ⟨row, hrow, hres⟩ := ho.closing c ctx code locked hc
    obtain ⟨row', hrow', hcont, -⟩ := reconcile_row_same ho hstep hrow
    obtain ⟨r, hr⟩ := Option.ne_none_iff_exists'.mp hres
    exact ⟨row', hrow', by rw [hcont.result r hr]; exact Option.some_ne_none r⟩
  · intro i'
    show (update s.reconciles i st i').Settled db
    by_cases hi : i' = i
    · subst hi
      rw [update_self]
      exact step_reconcile_settled hp ho hstep fun ov row _ => hrows ov row
    · rw [update_of_ne hi]
      exact (ho.reconciles i').mono fun ov row _ => hrows ov row

theorem Settled.retire {s : System} {c : ℕ} {st : ApplyState} (ho : s.Settled) (hov : st.override = none) :
    ({ s with calls := update s.calls c st } : System).Settled := by
  have hcases : ∀ c' ov, (update s.calls c st c').override = some ov →
      update s.calls c st c' = s.calls c' := by
    intro c' ov hc'
    by_cases hne : c' = c
    · subst hne
      rw [update_self, hov] at hc'
      cases hc'
    · exact update_of_ne hne _ _
  refine ⟨?_, ho.attached, ?_, ho.reconciles⟩
  · intro c' ov hc' hwriter
    have hsame := hcases c' ov hc'
    simp only [hsame] at hc' hwriter ⊢
    obtain ⟨hrow, halone⟩ := ho.alone c' ov hc' hwriter
    refine ⟨hrow, fun c'' hc'' hw'' => ?_⟩
    have hsame' := hcases c'' ov hc''
    rw [hsame'] at hc'' hw''
    exact halone c'' hc'' hw''
  · intro c' ctx code locked hc'
    have hc₁ : update s.calls c st c' = .closing ctx (.markPartial code) locked := hc'
    have hsame := hcases c' ctx.overrideId (by rw [hc₁]; rfl)
    rw [hsame] at hc₁
    exact ho.closing c' ctx code locked hc₁

theorem Settled.retireReconcile (ho : s.Settled) (hst : st.Settled s.db) :
    ({ s with reconciles := update s.reconciles i st } : System).Settled := by
  refine ⟨ho.alone, ho.attached, ho.closing, ?_⟩
  intro i'
  show (update s.reconciles i st i').Settled s.db
  by_cases hne : i' = i
  · subst hne
    rw [update_self]
    exact hst
  · rw [update_of_ne hne]
    exact ho.reconciles i'

/-- An exclusive step leaves every writer alone with its row. -/
theorem step_settled {s s' : System} {a : Action} (hp : Provenance worker s) (ho : s.Settled)
    (hok : s.Exclusive a) (h : step worker s a = some s') : s'.Settled := by
  cases a with
  | beginApply c input =>
    simp only [step] at h
    split at h
    · cases h
      exact ho.retire rfl
    · cases h
  | advance c o => exact advance_settled hp ho hok h
  | crash c =>
    simp only [step] at h
    split at h
    · cases h
      exact ho.retire rfl
    · cases h
  | expireLock t =>
    cases h
    exact ⟨ho.alone, ho.attached, ho.closing, ho.reconciles⟩
  | beginReconcile i ov =>
    simp only [step] at h
    split at h
    · cases h
      exact ho.retireReconcile trivial
    · cases h
  | advanceReconcile i o => exact reconcile_settled hp ho h
  | crashReconcile i =>
    simp only [step] at h
    split at h
    · cases h
      exact ho.retireReconcile trivial
    · cases h
  | _ => cases hok

theorem Initial.settled (h : Initial s) : s.Settled := by
  refine ⟨?_, ?_, ?_, ?_⟩
  · intro c ov hov
    rw [h.calls] at hov
    cases hov
  · intro ov row hrow
    rw [h.find] at hrow
    cases hrow
  · intro c ctx code locked hc
    rw [h.calls] at hc
    cases hc
  · intro i
    rw [h.reconciles]
    trivial

theorem exec_settled {s₀ : System} (h₀ : Initial s₀) (hok : Meets (step worker) Exclusive s₀ run)
    (hrun : exec (step worker) s₀ run = some s) : Provenance worker s ∧ s.Settled :=
  exec_invariant (I := fun s => Provenance worker s ∧ s.Settled)
    (fun _ _ _ hs hr hstep => ⟨step_provenance hs.1 hstep, step_settled hs.1 hs.2 hr hstep⟩) hok hrun
    ⟨h₀.provenance, h₀.settled⟩

/-! ### Final rows -/

/-- A final row keeps its outcome through every exclusive step. -/
theorem step_final (ho : s.Settled) (hok : s.Exclusive a) (h : step worker s a = some s')
    {row : RuntimeOverride} (hrow : s.db.ledger.find ov = some row) (hf : row.status.final = true) :
    ∃ row', s'.db.ledger.find ov = some row' ∧ row'.outcome = row.outcome := by
  have hsame : s'.db = s.db → ∃ row', s'.db.ledger.find ov = some row' ∧
      row'.outcome = row.outcome := by
    intro hdb
    exact ⟨row, by rw [hdb]; exact hrow, rfl⟩
  have hdecided : ¬ row.status.unfinished := by
    rintro (hs | hs) <;> rw [hs] at hf <;> cases hf
  cases a with
  | beginApply c input =>
    simp only [step] at h
    split at h
    · cases h; exact hsame rfl
    · cases h
  | advance c o =>
    obtain ⟨⟨st, db, locks⟩, hstep, rfl⟩ := Option.map_eq_some_iff.mp h
    -- A writer of this row would expect it unfinished.
    have hother : (s.calls c).override = some ov → (s.calls c).expects = [] := by
      intro hcov
      by_contra hw
      obtain ⟨⟨row₁, hrow₁, hexp⟩, -⟩ := ho.alone c ov hcov hw
      rw [hrow] at hrow₁
      cases hrow₁
      exact hdecided (ApplyState.expects_unfinished hexp)
    obtain ⟨row', hrow', hs, hd, hcode, hv⟩ := call_row_same hstep hrow hother
    exact ⟨row', hrow', RuntimeOverride.outcome_eq hs hd hcode hv⟩
  | crash c =>
    simp only [step] at h
    split at h
    · cases h; exact hsame rfl
    · cases h
  | expireLock t => cases h; exact hsame rfl
  | beginReconcile i ov =>
    simp only [step] at h
    split at h
    · cases h; exact hsame rfl
    · cases h
  | advanceReconcile i o =>
    obtain ⟨⟨st, db⟩, hstep, rfl⟩ := Option.map_eq_some_iff.mp h
    obtain ⟨row', hrow', -, rfl | ⟨-, -, hfinal⟩⟩ := reconcile_row_same ho hstep hrow
    · exact ⟨row', hrow', rfl⟩
    · obtain ⟨hs, hd, hcode, hv⟩ := hfinal hf
      exact ⟨row', hrow', RuntimeOverride.outcome_eq hs hd hcode hv⟩
  | crashReconcile i =>
    simp only [step] at h
    split at h
    · cases h; exact hsame rfl
    · cases h
  | _ => cases hok

theorem exec_final (hp : Provenance worker s) (ho : s.Settled) (hok : Meets (step worker) Exclusive s run)
    (hrun : exec (step worker) s run = some s') {row : RuntimeOverride}
    (hrow : s.db.ledger.find ov = some row) (hf : row.status.final = true) :
    ∃ row', s'.db.ledger.find ov = some row' ∧ row'.outcome = row.outcome := by
  refine exec_relation (I := fun s => Provenance worker s ∧ s.Settled)
    (R := fun s s' => ∀ ov row, s.db.ledger.find ov = some row → row.status.final = true →
      ∃ row', s'.db.ledger.find ov = some row' ∧ row'.outcome = row.outcome)
    (fun s ov row hrow _ => ⟨row, hrow, rfl⟩) ?_
    (fun _ _ _ hs hr hstep => ⟨step_provenance hs.1 hstep, step_settled hs.1 hs.2 hr hstep⟩)
    (fun _ _ _ hs hr hstep ov row hrow hf => step_final hs.2 hr hstep hrow hf) hok hrun ⟨hp, ho⟩
    ov row hrow hf
  intro a b c hab hbc ov row hrow hf
  obtain ⟨row₁, hrow₁, h₁⟩ := hab ov row hrow hf
  have hstatus : row₁.status = row.status := congrArg Prod.fst h₁
  obtain ⟨row₂, hrow₂, h₂⟩ := hbc ov row₁ hrow₁ (by rw [hstatus]; exact hf)
  exact ⟨row₂, hrow₂, h₂.trans h₁⟩

theorem Exclusive.overrides (h : s.Exclusive a) : a.overrides = true := by
  cases a with
  | advance c o => rfl
  | _ => exact h

/-- **Outcomes are final and agree with the thread.**  In every run of calls, crashes and
reconciliations in which no unfinished request is replayed under a call that may still write its row:
the outcome of a final row never changes, a row is `APPLIED` exactly when the steps that worked on it
have raised the version of its thread by one, and the result of any other row is not on the canonical
chain. -/
theorem outcomes_final {s₀ s s' : System} {run more : List Action} {ov : String} {row : RuntimeOverride}
    (h₀ : Initial s₀) (hok : Meets (step worker) Exclusive s₀ (run ++ more))
    (hrun : exec (step worker) s₀ run = some s) (hmore : exec (step worker) s more = some s')
    (hrow : s.db.ledger.find ov = some row) :
    (row.status.final = true →
        ∃ row', s'.db.ledger.find ov = some row' ∧ row'.outcome = row.outcome) ∧
      (row.status = .applied ↔ raisedBy worker row.threadId ov s₀ run = 1) ∧
      (row.status ≠ .applied → raisedBy worker row.threadId ov s₀ run = 0 ∧
        ∀ c, row.resultCheckpointId = some c → ¬ AtOrBelow s.db row.threadId c) := by
  obtain ⟨hok₁, hok₂⟩ := meets_append.mp hok
  obtain ⟨hp, ho⟩ := exec_settled h₀ hok₁ hrun
  have hover : Meets (step worker) (fun _ a => a.overrides = true) s₀ run :=
    hok₁.mono fun _ _ h => h.overrides
  have hraised : raisedBy worker row.threadId ov s₀ run =
      if row.status = .applied then 1 else 0 := by
    have h := exec_raised hover hrun hrow
    rwa [Db.applications_none (h₀.find ov), Nat.zero_add, Db.applications_eq hrow] at h
  refine ⟨exec_final hp ho (hok₂ s hrun) hmore hrow, ?_, fun hne => ⟨?_, fun c hc => ?_⟩⟩
  · rw [hraised]
    constructor
    · exact fun happ => if_pos happ
    · intro h
      by_contra hne
      rw [if_neg hne] at h
      cases h
  · rw [hraised, if_neg hne]
  · exact (exec_offChain h₀ hover hrun).below ov _ c row (Or.inl ⟨row, hrow, rfl, hc⟩) hrow hne

/-! ### A replay after the outcome, and one before it -/

/-- A reservation that finds no row of its key, or one that has been decided. -/
def afterOutcome (s : System) : Action → Bool
  | .advance c _ =>
    match s.calls c with
    | .reserving _ command => (s.db.byKey command.idempotencyKey).all fun row =>
      row.status ≠ .pending ∧ row.status ≠ .applying
    | _ => true
  | a => a.overrides

theorem exclusive_of_afterOutcome (s : System) (a : Action) (h : s.afterOutcome a = true) :
    s.Exclusive a := by
  cases a with
  | advance c o =>
    intro input command hst row hrow hunfinished
    simp only [afterOutcome, hst, hrow, Option.all_some, decide_eq_true_eq] at h
    rcases hunfinished with hs | hs
    · exact absurd hs h.1
    · exact absurd hs h.2
  | _ => exact h

def appliedRun : List Action :=
  .beginApply 0 (breakdownInput "key-1" (some "capacity")) ::
    List.replicate 12 (.advance 0 smooth)

def repeatedRun : List Action :=
  [.beginApply 1 (breakdownInput "key-1" (some "capacity")), .advance 1 smooth, .advance 1 smooth]

/-- A replay of an applied override leaves its outcome, and the override has raised the version
once. -/
theorem outcomes_final_replay : ∃ s s' row row',
    exec (step exampleWorker) boundary appliedRun = some s ∧
      exec (step exampleWorker) s repeatedRun = some s' ∧
      s.db.ledger.find "override-1" = some row ∧ row.status = .applied ∧
      s'.db.ledger.find "override-1" = some row' ∧ row'.outcome = row.outcome ∧
      raisedBy exampleWorker row.threadId "override-1" boundary appliedRun = 1 := by
  have hx : ((exec (step exampleWorker) boundary appliedRun).bind fun s =>
      (exec (step exampleWorker) s repeatedRun).bind fun _ =>
        (s.db.ledger.find "override-1").map fun row => decide (row.status = .applied)) =
      some true := by
    decide +kernel
  have hok : Meets (step exampleWorker) (fun s a => s.afterOutcome a = true) boundary
      (appliedRun ++ repeatedRun) := by
    decide +kernel
  obtain ⟨s, hs, hx⟩ := Option.bind_eq_some_iff.mp hx
  obtain ⟨s', hs', hx⟩ := Option.bind_eq_some_iff.mp hx
  obtain ⟨row, hrow, hx⟩ := Option.map_eq_some_iff.mp hx
  have happ : row.status = .applied := of_decide_eq_true hx
  obtain ⟨hfinal, hiff, -⟩ := outcomes_final boundary_initial (hok.mono exclusive_of_afterOutcome)
    hs hs' hrow
  obtain ⟨row', hrow', hsame⟩ := hfinal (by rw [happ]; rfl)
  exact ⟨s, s', row, row', hs, hs', hrow, happ, hrow', hsame, hiff.mp happ⟩

/-- Two calls of one key find the row `PENDING`; the second finds the lock taken while the first is
about to promote. -/
def overlappingRun : List Action :=
  [.beginApply 0 (breakdownInput "key-1" (some "capacity")), .advance 0 smooth, .advance 0 smooth,
    .beginApply 1 (breakdownInput "key-1" (some "capacity")), .advance 1 smooth,
    .advance 1 smooth] ++
    List.replicate 7 (.advance 0 smooth) ++ List.replicate 2 (.advance 1 smooth)

/-- The first call goes on, and the override is reconciled. -/
def lateRun : List Action :=
  List.replicate 2 (.advance 0 smooth) ++ [.beginReconcile 0 "override-1"] ++
    List.replicate 5 (.advanceReconcile 0 smooth)

/-- **An override reported `CONFLICT` is applied afterwards**: the second call finishes the row as
busy, the promotion of the first call then fails and makes it `PARTIAL`, and the reconciliation
promotes it. -/
theorem conflict_then_applied :
    ¬ ∀ (run more : List Action) (s s' : System) (ov : String) (row : RuntimeOverride),
      (∀ a ∈ run ++ more, a.overrides = true) → exec (step exampleWorker) boundary run = some s →
      exec (step exampleWorker) s more = some s' → s.db.ledger.find ov = some row →
      row.status.final = true →
      ∃ row', s'.db.ledger.find ov = some row' ∧ row'.outcome = row.outcome := by
  intro hfinal
  have hx : ((exec (step exampleWorker) boundary overlappingRun).bind fun s =>
      (exec (step exampleWorker) s lateRun).bind fun s' =>
        (s.db.ledger.find "override-1").bind fun row =>
          (s'.db.ledger.find "override-1").map fun row' =>
            decide (row.status = .conflict ∧ row'.status = .applied)) = some true := by
    decide +kernel
  obtain ⟨s, hs, hx⟩ := Option.bind_eq_some_iff.mp hx
  obtain ⟨s', hs', hx⟩ := Option.bind_eq_some_iff.mp hx
  obtain ⟨row, hrow, hx⟩ := Option.bind_eq_some_iff.mp hx
  obtain ⟨row', hrow', hx⟩ := Option.map_eq_some_iff.mp hx
  obtain ⟨hconflict, happ⟩ := of_decide_eq_true hx
  obtain ⟨row₁, hrow₁, hsame⟩ := hfinal overlappingRun lateRun s s' "override-1" row (by decide) hs
    hs' hrow (by rw [hconflict]; rfl)
  rw [hrow'] at hrow₁
  cases hrow₁
  have hstatus : row'.status = row.status := congrArg Prod.fst hsame
  rw [happ, hconflict] at hstatus
  cases hstatus

end System

end CountyFlow.Override
