import CountyFlow.Override.Fence

/-!
# Which process writes which row

A call past its reservation works on one override, and so does a reconciliation.  This file says once
what a step of either does to the ledger: it leaves every other row alone, and writes its own only in
one of a few ways, which `Writes` lists.
-/

namespace CountyFlow.Override

open CountyFlow.Lib CountyFlow.Core CountyFlow.Runtime Function

variable {config : RuntimeConfig}

/-! ### The override of a process -/

/-- The override a call works on, from its reservation to its end. -/
def ApplyState.override : ApplyState → Option String
  | .idle | .entered _ | .reserving _ _ | .done _ | .crashed => none
  | .recovering ctx _ | .releasing ctx _ | .requesting ctx | .loading ctx | .reading ctx _
  | .claiming ctx _ _ | .marking ctx _ _ | .updating ctx _ _ | .undoing ctx _ _ | .attaching ctx _
  | .promoting ctx _ | .publishing ctx | .closing ctx _ _ | .leaving ctx _ _ | .inspecting ctx _
  | .freeing ctx _ _ => some ctx.overrideId

/-- The override a reconciliation works on, once it has fetched it. -/
def ReconcileState.override : ReconcileState → Option String
  | .idle | .fetching _ | .done _ | .crashed => none
  | .comparing item | .loadingSource item _ _ | .loadingResult item _ _ | .promoting item _ =>
    some item.overrideId
  | .closing ov _ => some ov

def ApplyState.thread : ApplyState → Option String
  | .idle | .done _ | .crashed => none
  | .entered input | .reserving input _ => some input.threadId
  | .recovering ctx _ | .releasing ctx _ | .requesting ctx | .loading ctx | .reading ctx _
  | .claiming ctx _ _ | .marking ctx _ _ | .updating ctx _ _ | .undoing ctx _ _ | .attaching ctx _
  | .promoting ctx _ | .publishing ctx | .closing ctx _ _ | .leaving ctx _ _ | .inspecting ctx _
  | .freeing ctx _ _ => some ctx.threadId

variable {db db' : Db} {ov : String}

variable {c : ℕ} {o : Outcome} {locks locks' : Locks} {st st' : ApplyState}

theorem ApplyState.step_override (h : step config c o db locks st = some (st', db', locks'))
    (hov : st'.override = some ov) :
    st.override = some ov ∨ ∃ input command stored replayed, st = .reserving input command ∧
      db.beginOrReplay command (command.requestedAt + intentTtl) = .ok (stored, replayed, db') ∧
      stored.overrideId = ov ∧
      st' = resumeFrom ⟨input.threadId, input.request, command, stored.overrideId⟩ stored
        replayed := by
  cases step_moves h with
  | begun hb | repairing hb | recovering hb =>
    simp only [step, step.keep, reserve, hb, Option.some.injEq, Prod.mk.injEq] at h
    exact .inr ⟨_, _, _, _, rfl, hb, Option.some.inj hov, h.1.symm⟩
  | refused | entered | unreserved | answered | unlocked | ended | left | settled | unfreed
      | freed => cases hov
  | _ => exact .inl hov

/-! ### What a step writes -/

/-- What a call's step makes of its row. -/
inductive ApplyState.Writes : ApplyState → RuntimeOverride → RuntimeOverride → Prop
  | same {st : ApplyState} {row : RuntimeOverride} : Writes st row row
  | marked {ctx : ApplyContext} {thread : RuntimeThread} {source : CheckpointRecord}
      {row : RuntimeOverride} {now : ℕ} : row.status = .pending →
      Writes (.marking ctx thread source) row
        { row with
          status := .applying
          decision := some .allowed
          beforeStateVersion := some thread.stateVersion
          sourceCheckpointId := some source.checkpointId
          startedAt := some now }
  | attached {ctx : ApplyContext} {record : CheckpointRecord} {row : RuntimeOverride} :
      row.status = .applying →
      Writes (.attaching ctx record) row
        { row with resultCheckpointId := some record.checkpointId }
  | promoted {ctx : ApplyContext} {record : CheckpointRecord} {row : RuntimeOverride} {v now : ℕ} :
      row.status = .applying ∨ row.status = .partiallyDone →
      Writes (.promoting ctx record) row (row.applyPromotion v now)
  | published {ctx : ApplyContext} {row : RuntimeOverride} {eventStatus : String} :
      Writes (.publishing ctx) row (row.markEventStatus eventStatus)
  | finished {ctx : ApplyContext} {locked : Bool} {row : RuntimeOverride} {status : FinalStatus}
      {decision : RuntimeOverrideDecision} {code : String} {now : ℕ} :
      Writes (.closing ctx (.finish status decision code) locked) row
        (row.finish status decision code now)
  | setPartial {ctx : ApplyContext} {locked : Bool} {row : RuntimeOverride} {code : String} {now : ℕ} :
      Writes (.closing ctx (.markPartial code) locked) row (row.markPartial code now)

/-- What a reconciliation's step makes of its row. -/
inductive ReconcileState.Writes : ReconcileState → RuntimeOverride → RuntimeOverride → Prop
  | same {st : ReconcileState} {row : RuntimeOverride} : Writes st row row
  | promoted {item row : RuntimeOverride} {result : CheckpointRecord} {v now : ℕ} :
      row.status = .applying ∨ row.status = .partiallyDone →
      Writes (.promoting item result) row (row.applyPromotion v now)
  | finished {ov : String} {row : RuntimeOverride} {status : FinalStatus}
      {decision : RuntimeOverrideDecision} {code : String} {now : ℕ} :
      Writes (.closing ov (.finish status decision code)) row (row.finish status decision code now)
  | setPartial {ov : String} {row : RuntimeOverride} {code : String} {now : ℕ} :
      Writes (.closing ov (.markPartial code)) row (row.markPartial code now)

def Rewrites (db db' : Db) (ov : String) (writes : RuntimeOverride → RuntimeOverride → Prop) : Prop :=
  ∃ row row', db.ledger.find ov = some row ∧ row'.overrideId = row.overrideId ∧ writes row row' ∧
    db'.ledger = db.ledger.replace row'

variable {writes : RuntimeOverride → RuntimeOverride → Prop}

theorem Rewrites.find_self (h : Rewrites db db' ov writes) :
    ∃ row row', db.ledger.find ov = some row ∧ db'.ledger.find ov = some row' ∧ writes row row' := by
  obtain ⟨row, row', hrow, hid, hw, hledger⟩ := h
  refine ⟨row, row', hrow, ?_, hw⟩
  have hov : row'.overrideId = ov := hid.trans (Table.find_key hrow)
  subst hov
  rw [hledger]
  exact Table.find_replace_self hrow

theorem Rewrites.find_other {ov' : String} (h : Rewrites db db' ov writes) (hne : ov' ≠ ov) :
    db'.ledger.find ov' = db.ledger.find ov' := by
  obtain ⟨row, row', hrow, hid, -, hledger⟩ := h
  rw [hledger]
  refine Table.find_replace_ne _ _ ?_
  rw [hid, Table.find_key hrow]
  exact hne

variable {row' : RuntimeOverride}

theorem rewrites_updateRow {method : RuntimeOverride → Except LedgerError RuntimeOverride}
    (hm : ∀ row row', method row = .ok row' → row'.overrideId = row.overrideId ∧ writes row row')
    (h : db.updateRow ov method = .ok (row', db')) : Rewrites db db' ov writes := by
  obtain ⟨row, hrow, hmeth, rfl⟩ := Db.updateRow_ok h
  obtain ⟨hid, hw⟩ := hm row row' hmeth
  exact ⟨row, row', hrow, hid, hw, rfl⟩

theorem rewrites_close {w : Closing} {now : ℕ}
    (hfinish : ∀ row st d code, w = .finish st d code → writes row (row.finish st d code now))
    (hincomplete : ∀ row code, w = .markPartial code → writes row (row.markPartial code now))
    (h : db.close ov w now = .ok (row', db')) : Rewrites db db' ov writes := by
  cases w with
  | finish st d code =>
    refine rewrites_updateRow (fun row row' hm => ?_) h
    rw [← Except.ok.inj hm]
    exact ⟨(RuntimeOverride.finish_continues row st d code now).1.request.overrideId,
      hfinish row st d code rfl⟩
  | markPartial code =>
    refine rewrites_updateRow (fun row row' hm => ?_) h
    rw [← Except.ok.inj hm]
    exact ⟨(RuntimeOverride.markPartial_continues row code now).1.request.overrideId,
      hincomplete row code rfl⟩

theorem rewrites_promote {c : String} {size now : ℕ} {commits : Bool}
    (happly : ∀ (row : RuntimeOverride) v, row.status = .applying ∨ row.status = .partiallyDone →
      writes row (row.applyPromotion v now))
    (h : db.promoteApplied ov c size now commits = .ok (row', db')) :
    db'.ledger = db.ledger ∨ Rewrites db db' ov writes := by
  obtain ⟨row, hrow, ⟨-, -, rfl⟩ | ⟨t, -, hprom, -, hrow', rfl⟩⟩ := Db.promoteApplied_ok h
  · exact .inl rfl
  · refine .inr ⟨row, row', hrow, ?_, ?_, ?_⟩
    · rw [hrow']
      rfl
    · rw [hrow']
      exact happly row _ (RuntimeOverride.promotable_iff.mp hprom).1
    · rw [Db.ledger_lower]
      rfl

/-- A reservation: a new row under a new id, for a call that goes to the lock. -/
def Reserves (db db' : Db) (st st' : ApplyState) : Prop :=
  ∃ input command t row, st = .reserving input command ∧ db.byKey command.idempotencyKey = none ∧
    db.threads command.threadId = some t ∧
    row = RuntimeOverride.reserve command t.row.taskId (command.requestedAt + intentTtl) ∧
    db.ledger.add row = some db'.ledger ∧
    st' = .requesting ⟨input.threadId, input.request, command, command.overrideId⟩

/-- A call writes no row but that of its override. -/
theorem ApplyState.step_rows (h : step config c o db locks st = some (st', db', locks')) :
    db'.ledger = db.ledger ∨ Reserves db db' st st' ∨
      ∃ ov, st.override = some ov ∧ Rewrites db db' ov st.Writes := by
  cases step_moves h with
  | begun hb | repairing hb | recovering hb | answered hb =>
    obtain ⟨-, rfl, -⟩ | ⟨rfl, hkey, t, ledger, ht, hrow, hadd, rfl⟩ := Db.beginOrReplay_ok hb
    · exact .inl rfl
    · simp only [step, step.keep, reserve, hb, Option.some.injEq, Prod.mk.injEq] at h
      refine .inr (Or.inl ⟨_, _, t, _, rfl, hkey, ht, hrow, hadd, ?_⟩)
      rw [← h.1, hrow]
      rfl
  | released hrel | undone hrel | freed hrel => exact .inl (Db.ledger_releaseOverrideBoundary hrel)
  | claimed hclaim => exact .inl (Db.ledger_claimOverrideBoundary hclaim)
  | marked hm =>
    refine .inr (Or.inr ⟨_, rfl, rewrites_updateRow (fun row row' hmeth => ?_) hm⟩)
    obtain ⟨-, rfl⟩ | ⟨hs, rfl⟩ := RuntimeOverride.markApplying_ok hmeth
    · exact ⟨rfl, .same⟩
    · exact ⟨rfl, .marked hs⟩
  | invalid hs | updated hs =>
    obtain ⟨-, -, rfl⟩ := Db.saveCheckpoint_eq_some.mp hs
    exact .inl rfl
  | attached ha =>
    refine .inr (Or.inr ⟨_, rfl, rewrites_updateRow (fun row row' hmeth => ?_) ha⟩)
    obtain ⟨hs, -, rfl⟩ := RuntimeOverride.attachResultCheckpoint_ok hmeth
    exact ⟨rfl, .attached hs⟩
  | promoted hp =>
    exact (rewrites_promote (fun row v hs => .promoted hs) hp).imp_right fun hw => Or.inr ⟨_, rfl, hw⟩
  | published hm =>
    refine .inr (Or.inr ⟨_, rfl, rewrites_updateRow (fun row row' hmeth => ?_) hm⟩)
    rw [← Except.ok.inj hmeth]
    exact ⟨rfl, .published⟩
  | closed hdb | ended hdb =>
    obtain rfl | ⟨row, hclose⟩ := hdb
    · exact .inl rfl
    · refine .inr (Or.inr ⟨_, rfl, rewrites_close ?_ ?_ hclose⟩)
      · rintro row st d code rfl
        exact .finished
      · rintro row code rfl
        exact .setPartial
  | _ => exact .inl rfl

/-- A reconciliation writes no row but that of its override. -/
theorem ReconcileState.step_rows {st st' : ReconcileState} (h : step config o db st = some (st', db')) :
    db'.ledger = db.ledger ∨ ∃ ov, st.override = some ov ∧ Rewrites db db' ov st.Writes := by
  cases st with
  | idle => cases h
  | done result => cases h
  | crashed => cases h
  | fetching ov => cases h; exact .inl rfl
  | comparing item => cases h; exact .inl rfl
  | loadingSource item a b => cases h; exact .inl rfl
  | loadingResult item a b => cases h; exact .inl rfl
  | promoting item result =>
    obtain ⟨rfl, rfl⟩ := Prod.mk.inj (Option.some.inj h)
    split
    · exact .inl rfl
    · exact .inl rfl
    · rename_i db₁ hp
      have hpromote : db₁.ledger = db.ledger ∨
          Rewrites db db₁ item.overrideId (Writes (.promoting item result)) :=
        rewrites_promote (fun row v hs => .promoted hs) hp
      obtain hsame | hw := hpromote
      · exact .inl hsame
      · exact .inr ⟨_, rfl, hw⟩
  | closing ov write =>
    obtain ⟨rfl, rfl⟩ := Prod.mk.inj (Option.some.inj h)
    split
    · exact .inl rfl
    · rename_i hc
      refine .inr ⟨_, rfl, rewrites_close ?_ ?_ hc⟩
      · rintro row st d code rfl
        exact .finished
      · rintro row code rfl
        exact .setPartial

/-! ### Held threads -/

/-- The thread is `OVERRIDING` under the fence of the override. -/
def Holds (db : Db) (t ov : String) : Prop :=
  db.fence t = some ov ∧ ∃ r, db.threads t = some r ∧ r.row.status = .overriding

variable {t : String}

theorem TakesDown.not_holds {ov' : String} (h : TakesDown db db' t ov) : ¬ Holds db' t ov' := by
  rintro ⟨-, r, hr, hs⟩
  obtain ⟨r₁, r₂, -, -, hstable, hthreads, -⟩ := h
  rw [hthreads, Db.threads_setThread, if_pos rfl] at hr
  rw [← Option.some.inj hr, hstable] at hs
  cases hs

theorem TakesDown.holds {t' ov' : String} (h : TakesDown db db' t ov) (hh : Holds db' t' ov') :
    Holds db t' ov' ∧ db'.threads t' = db.threads t' := by
  have hne : t' ≠ t := by
    rintro rfl
    exact h.not_holds hh
  obtain ⟨r₁, r₂, -, -, -, hthreads, hfence⟩ := h
  have hsame : db'.threads t' = db.threads t' := by
    rw [hthreads, Db.threads_setThread, if_neg hne]
  obtain ⟨hf, hr⟩ := hh
  rw [hfence, Db.fence_lower, if_neg fun hd => hne hd.1] at hf
  rw [hsame] at hr
  exact ⟨⟨hf, hr⟩, hsame⟩

theorem PutsUp.holds {t' ov' : String} (h : PutsUp db db' t ov) (hh : Holds db' t' ov') :
    (t' = t ∧ ov' = ov) ∨ (Holds db t' ov' ∧ db'.threads t' = db.threads t') := by
  obtain ⟨r, hr, hs, rfl⟩ := h
  obtain ⟨hf, hr'⟩ := hh
  by_cases ht : t' = t
  · subst ht
    have hself : update db.fence t' (some ov) t' = some ov' := hf
    rw [update_self] at hself
    exact .inl ⟨rfl, (Option.some.inj hself).symm⟩
  · have hsame : (db.setThread t (r.claimed .overriding none)).threads t' = db.threads t' := by
      rw [Db.threads_setThread, if_neg ht]
    have hother : update db.fence t (some ov) t' = some ov' := hf
    rw [update_of_ne ht] at hother
    refine .inr ⟨⟨hother, ?_⟩, hsame⟩
    obtain ⟨r', hr', hs'⟩ := hr'
    exact ⟨r', hsame ▸ hr', hs'⟩

theorem Holds.congr (ht : db'.threads = db.threads) (hf : db'.fence = db.fence) :
    Holds db' t ov ↔ Holds db t ov := by
  unfold Holds
  rw [ht, hf]

theorem ApplyState.step_holds (hok : st.Ok config db)
    (h : step config c o db locks st = some (st', db', locks')) (hh : Holds db' t ov) :
    (Holds db t ov ∧ db'.threads t = db.threads t) ∨
      ∃ ctx thread source, st = .claiming ctx thread source ∧ st' = .marking ctx thread source ∧
        ctx.threadId = t ∧ ctx.overrideId = ov ∧ PutsUp db db' t ov := by
  obtain ⟨hthreads, hfence⟩ | ⟨ctx, thread, source, hst, hst', hup⟩ | ⟨t₁, ov₁, -, hdown⟩ :=
    step_fence hok h
  · exact .inl ⟨(Holds.congr hthreads hfence).mp hh, by rw [hthreads]⟩
  · obtain ⟨rfl, rfl⟩ | hold := hup.holds hh
    · exact .inr ⟨ctx, thread, source, hst, hst', rfl, rfl, hup⟩
    · exact .inl hold
  · exact .inl (hdown.holds hh)

theorem ReconcileState.step_holds {st st' : ReconcileState} (hok : st.Ok db)
    (h : step config o db st = some (st', db')) (hh : Holds db' t ov) :
    Holds db t ov ∧ db'.threads t = db.threads t := by
  obtain ⟨hthreads, hfence⟩ | ⟨t₁, ov₁, -, hdown⟩ := step_fence hok h
  · exact ⟨(Holds.congr hthreads hfence).mp hh, by rw [hthreads]⟩
  · exact hdown.holds hh

end CountyFlow.Override
