import CountyFlow.Override.System

/-!
# How the database evolves

`Db.Change` lists what one repository call can do to the database, without saying who made it.
Everything the processes share follows from that list: `Db.Evolves` is what no call ever undoes, and
`versionBalance` is the arithmetic of the state version.
-/

namespace CountyFlow.Override

open CountyFlow.Lib CountyFlow.Core CountyFlow.Runtime

/-! ### Rows and threads -/

/-- What a ledger row keeps for good. -/
structure RuntimeOverride.Continues (a b : RuntimeOverride) : Prop where
  request : SameRequest a b
  source : a.status ≠ .pending → b.status ≠ .pending ∧ b.sourceCheckpointId = a.sourceCheckpointId
  result : ∀ r, a.resultCheckpointId = some r → b.resultCheckpointId = some r
  applied : a.status = .applied → b.status = .applied

/-- What a thread keeps for good: its version does not fall, and its canonical checkpoint is the
same as long as the version is. -/
structure Advances (a b : ThreadRecord) : Prop where
  threadId : b.row.threadId = a.row.threadId
  version : a.row.stateVersion ≤ b.row.stateVersion
  pointer : b.row.stateVersion = a.row.stateVersion →
    b.row.currentCheckpointId = a.row.currentCheckpointId

/-- A change of a thread that is not a promotion. -/
structure Steered (a b : ThreadRecord) : Prop where
  threadId : b.row.threadId = a.row.threadId
  version : b.row.stateVersion = a.row.stateVersion
  pointer : b.row.currentCheckpointId = a.row.currentCheckpointId
  count : b.row.checkpointCount = a.row.checkpointCount

variable {c : String} {v now : ℕ}

namespace RuntimeOverride

theorem SameRequest.trans {a b c : RuntimeOverride} (h : SameRequest a b) (h' : SameRequest b c) :
    SameRequest a c :=
  ⟨h'.overrideId.trans h.overrideId, h'.threadId.trans h.threadId,
    h'.operatorId.trans h.operatorId, h'.idempotencyKey.trans h.idempotencyKey,
    h'.payloadFingerprint.trans h.payloadFingerprint, h'.expectedVersion.trans h.expectedVersion,
    h'.expectedNextNode.trans h.expectedNextNode, h'.entityId.trans h.entityId,
    h'.oldValue.trans h.oldValue, h'.newValue.trans h.newValue⟩

theorem Continues.refl (a : RuntimeOverride) : Continues a a :=
  ⟨SameRequest.refl a, fun h => ⟨h, rfl⟩, fun _ h => h, fun h => h⟩

theorem Continues.trans {a b c : RuntimeOverride} (h : Continues a b) (h' : Continues b c) :
    Continues a c where
  request := h.request.trans h'.request
  source hs := by
    obtain ⟨hb, hsrc⟩ := h.source hs
    obtain ⟨hc, hsrc'⟩ := h'.source hb
    exact ⟨hc, hsrc'.trans hsrc⟩
  result r hr := h'.result r (h.result r hr)
  applied hs := h'.applied (h.applied hs)

variable {row row' : RuntimeOverride}

theorem markApplying_continues (h : row.markApplying v c now = .ok row') :
    Continues row row' ∧ (row'.status = .applied ↔ row.status = .applied) := by
  obtain ⟨-, rfl⟩ | ⟨hs, rfl⟩ := markApplying_ok h
  · exact ⟨Continues.refl _, Iff.rfl⟩
  · refine ⟨⟨⟨rfl, rfl, rfl, rfl, rfl, rfl, rfl, rfl, rfl, rfl⟩, ?_, fun _ h => h, ?_⟩, ?_⟩
    · intro hne
      exact absurd hs hne
    · intro ha
      rw [hs] at ha
      cases ha
    · simp [hs]

theorem attachResultCheckpoint_continues (h : row.attachResultCheckpoint c = .ok row') :
    Continues row row' ∧ (row'.status = .applied ↔ row.status = .applied) := by
  obtain ⟨hs, hr, rfl⟩ := attachResultCheckpoint_ok h
  refine ⟨⟨⟨rfl, rfl, rfl, rfl, rfl, rfl, rfl, rfl, rfl, rfl⟩, fun hne => ⟨hne, rfl⟩, ?_,
    fun ha => ha⟩, Iff.rfl⟩
  intro r hres
  rcases hr with hr | hr
  · rw [hr] at hres
    cases hres
  · rw [hr] at hres
    exact hres

theorem finish_continues (row : RuntimeOverride) (st : FinalStatus) (d : RuntimeOverrideDecision)
    (code : String) (now : ℕ) :
    Continues row (row.finish st d code now) ∧
      ((row.finish st d code now).status = .applied ↔ row.status = .applied) := by
  unfold finish
  split
  · exact ⟨Continues.refl row, Iff.rfl⟩
  · rename_i hs
    have hst : st.status ≠ .pending ∧ st.status ≠ .applied := by cases st <;> simp [FinalStatus.status]
    exact ⟨⟨⟨rfl, rfl, rfl, rfl, rfl, rfl, rfl, rfl, rfl, rfl⟩, fun _ => ⟨hst.1, rfl⟩,
      fun _ h => h, fun h => absurd h hs⟩, ⟨fun h => absurd h hst.2, fun h => absurd h hs⟩⟩

theorem markPartial_continues (row : RuntimeOverride) (code : String) (now : ℕ) :
    Continues row (row.markPartial code now) ∧
      ((row.markPartial code now).status = .applied ↔ row.status = .applied) := by
  unfold markPartial
  split
  · exact ⟨Continues.refl row, Iff.rfl⟩
  · rename_i hs
    exact ⟨⟨⟨rfl, rfl, rfl, rfl, rfl, rfl, rfl, rfl, rfl, rfl⟩, fun _ => ⟨by simp, rfl⟩,
      fun _ h => h, fun h => absurd h hs⟩, ⟨fun h => (nomatch h), fun h => absurd h hs⟩⟩

theorem markEventStatus_continues (row : RuntimeOverride) (st : String) :
    Continues row (row.markEventStatus st) ∧
      ((row.markEventStatus st).status = .applied ↔ row.status = .applied) :=
  ⟨⟨⟨rfl, rfl, rfl, rfl, rfl, rfl, rfl, rfl, rfl, rfl⟩, fun h => ⟨h, rfl⟩, fun _ h => h,
    fun h => h⟩, Iff.rfl⟩

theorem applyPromotion_continues (row : RuntimeOverride) (v now : ℕ) :
    Continues row (row.applyPromotion v now) :=
  ⟨⟨rfl, rfl, rfl, rfl, rfl, rfl, rfl, rfl, rfl, rfl⟩, fun _ => ⟨by simp [applyPromotion], rfl⟩,
    fun _ h => h, fun _ => rfl⟩

end RuntimeOverride

theorem Advances.refl (a : ThreadRecord) : Advances a a := ⟨rfl, Nat.le_refl _, fun _ => rfl⟩

theorem Advances.trans {a b c : ThreadRecord} (h : Advances a b) (h' : Advances b c) : Advances a c where
  threadId := h'.threadId.trans h.threadId
  version := Nat.le_trans h.version h'.version
  pointer hv := by
    have hab : b.row.stateVersion = a.row.stateVersion := by
      have h1 := h.version
      have h2 := h'.version
      omega
    exact (h'.pointer (hv.trans hab.symm)).trans (h.pointer hab)

theorem Steered.advances {a b : ThreadRecord} (h : Steered a b) : Advances a b :=
  ⟨h.threadId, Nat.le_of_eq h.version.symm, fun _ => h.pointer⟩

theorem promoted_advances (r : ThreadRecord) (command : PromoteCheckpoint) :
    Advances r (r.promoted command) :=
  ⟨rfl, Nat.le_succ _, fun h => absurd h (Nat.succ_ne_self _)⟩

theorem applyOverride_advances (r : ThreadRecord) (row : RuntimeOverride) (c : String) (size : ℕ) :
    Advances r (applyOverride r row c size) :=
  ⟨rfl, Nat.le_succ _, fun h => absurd h (Nat.succ_ne_self _)⟩

variable {r r' : ThreadRecord} {key w : String} {commits : Bool}

theorem markResumed_steered (h : r.markResumed key w commits = .ok r') : Steered r r' := by
  obtain rfl | ⟨-, -, hrow, -⟩ := ThreadRecord.markResumed_ok h
  · exact ⟨rfl, rfl, rfl, rfl⟩
  · exact ⟨by rw [hrow], by rw [hrow], by rw [hrow], by rw [hrow]⟩

variable {node code : Option String}

theorem markTerminal_steered (h : r.markTerminal key w node code now commits = .ok r') : Steered r r' := by
  obtain ⟨-, rfl⟩ | ⟨-, -, rfl⟩ := ThreadRecord.markTerminal_ok h
  · exact ⟨rfl, rfl, rfl, rfl⟩
  · exact ⟨rfl, rfl, rfl, rfl⟩

/-! ### What one call can do -/

variable {method : RuntimeOverride → Except LedgerError RuntimeOverride} {t n : String}

namespace Db

/-- One repository call, by what it does to the database; `issued` are the promotion commands that
workers hold. -/
inductive Change (issued : PromoteCheckpoint → Prop) (db : Db) : Db → Prop
  | same : Change issued db db
  | reserved {c : RuntimeOverrideCommand} {t : ThreadRecord} {expires : ℕ} {ledger : Ledger} :
      db.threads c.threadId = some t →
      db.ledger.add (RuntimeOverride.reserve c t.row.taskId expires) = some ledger →
      Change issued db { db with ledger := ledger }
  | rewrote {row row' : RuntimeOverride} :
      db.ledger.find row'.overrideId = some row → RuntimeOverride.Continues row row' →
      (row'.status = .applied ↔ row.status = .applied) → Change issued db (db.setRow row')
  | steered {t : String} {r r' : ThreadRecord} {fence : String → Option String} :
      db.threads t = some r → Steered r r' → Change issued db { db.setThread t r' with fence := fence }
  | promoted {r : ThreadRecord} {command : PromoteCheckpoint} :
      db.threads command.threadId = some r →
      r.row.currentCheckpointId = command.expectedCheckpointId →
      r.row.stateVersion = command.expectedStateVersion → issued command →
      Change issued db (db.setThread command.threadId (r.promoted command))
  | applied {row : RuntimeOverride} {t : ThreadRecord} {c : String} {size now : ℕ} :
      db.ledger.find row.overrideId = some row → db.threads row.threadId = some t →
      row.promotable t.row c = true →
      Change issued db (((db.setRow (row.applyPromotion (t.row.stateVersion + 1) now)).setThread
        row.threadId (applyOverride t row c size)).lower row.threadId row.overrideId)
  | saved {record : CheckpointRecord} {db' : Db} :
      db.saveCheckpoint record = some db' → Change issued db db'
  | created {taskId t : String} :
      db.threads t = none → Change issued db (db.setThread t (ThreadRecord.create taskId t))

variable {issued : PromoteCheckpoint → Prop}

variable {db db' : Db} {row' : RuntimeOverride}

variable {ov : String}

theorem updateRow_change
    (hmethod : ∀ row row', method row = .ok row' → RuntimeOverride.Continues row row' ∧
      (row'.status = .applied ↔ row.status = .applied)) (h : db.updateRow ov method = .ok (row', db')) :
    Change issued db db' := by
  obtain ⟨row, hrow, hm, rfl⟩ := updateRow_ok h
  obtain ⟨hcont, happ⟩ := hmethod row row' hm
  refine Change.rewrote ?_ hcont happ
  rw [hcont.request.overrideId, Table.find_key hrow]
  exact hrow

theorem updateRow_found
    (hmethod : ∀ row row', method row = .ok row' → RuntimeOverride.Continues row row' ∧
      (row'.status = .applied ↔ row.status = .applied)) (h : db.updateRow ov method = .ok (row', db')) :
    db'.ledger.find ov = some row' := by
  obtain ⟨row, hrow, hm, rfl⟩ := updateRow_ok h
  have hid : row'.overrideId = ov := by
    rw [(hmethod row row' hm).1.request.overrideId, Table.find_key hrow]
  subst hid
  exact Table.find_replace_self hrow

theorem markApplying_found (h : db.markApplying ov v c now = .ok (row', db')) :
    db'.ledger.find ov = some row' :=
  updateRow_found (fun _ _ hm => RuntimeOverride.markApplying_continues hm) h

theorem attachResultCheckpoint_found (h : db.attachResultCheckpoint ov c = .ok (row', db')) :
    db'.ledger.find ov = some row' :=
  updateRow_found (fun _ _ hm => RuntimeOverride.attachResultCheckpoint_continues hm) h

theorem markApplying_change (h : db.markApplying ov v c now = .ok (row', db')) : Change issued db db' :=
  updateRow_change (fun _ _ hm => RuntimeOverride.markApplying_continues hm) h

theorem attachResultCheckpoint_change
    (h : db.attachResultCheckpoint ov c = .ok (row', db')) : Change issued db db' :=
  updateRow_change (fun _ _ hm => RuntimeOverride.attachResultCheckpoint_continues hm) h

theorem markEventStatus_change {st : String} (h : db.markEventStatus ov st = .ok (row', db')) :
    Change issued db db' :=
  updateRow_change (fun row _ hm => by
    rw [← Except.ok.inj hm]
    exact RuntimeOverride.markEventStatus_continues row st) h

theorem close_change {w : Closing} (h : db.close ov w now = .ok (row', db')) : Change issued db db' := by
  cases w with
  | finish st d code =>
    exact updateRow_change (fun row _ hm => by
      rw [← Except.ok.inj hm]
      exact RuntimeOverride.finish_continues row st d code now) h
  | markPartial code =>
    exact updateRow_change (fun row _ hm => by
      rw [← Except.ok.inj hm]
      exact RuntimeOverride.markPartial_continues row code now) h

theorem beginOrReplay_change {c : RuntimeOverrideCommand} {expires : ℕ} {row : RuntimeOverride}
    {replayed : Bool} (h : db.beginOrReplay c expires = .ok (row, replayed, db')) : Change issued db db' := by
  obtain ⟨-, rfl, -⟩ | ⟨-, -, t, ledger, ht, rfl, hadd, rfl⟩ := beginOrReplay_ok h
  · exact Change.same
  · exact Change.reserved ht hadd

theorem promoteApplied_change {size : ℕ}
    (h : db.promoteApplied ov c size now commits = .ok (row', db')) : Change issued db db' := by
  obtain ⟨row, hrow, ⟨-, -, rfl⟩ | ⟨t, ht, hp, -, rfl, rfl⟩⟩ := promoteApplied_ok h
  · exact Change.same
  · obtain rfl := Table.find_key hrow
    exact Change.applied hrow ht hp

variable {row : RuntimeThread}

theorem claimOverrideBoundary_change
    (h : db.claimOverrideBoundary t c v n ov = .ok (row, db')) : Change issued db db' := by
  obtain ⟨r, hr, -, rfl⟩ := claimOverrideBoundary_ok h
  exact Change.steered hr ⟨rfl, rfl, rfl, rfl⟩

theorem releaseOverrideBoundary_change
    (h : db.releaseOverrideBoundary t c v n ov = .ok (row, db')) : Change issued db db' := by
  obtain ⟨r, hr, -, rfl⟩ := releaseOverrideBoundary_ok h
  have hsteer : Steered r r.released := ⟨rfl, rfl, rfl, rfl⟩
  unfold lower
  split
  · exact Change.steered hr hsteer
  · exact Change.steered hr hsteer

theorem claimNextNode_change (h : db.claimNextNode t c v n w = .ok (row, db')) : Change issued db db' := by
  obtain ⟨r, r', hr, hm, -, rfl⟩ := updateThread_ok h
  obtain ⟨-, rfl⟩ := ThreadRecord.claimBoundary_ok hm
  exact Change.steered hr ⟨rfl, rfl, rfl, rfl⟩

theorem promoteCheckpoint_change {command : PromoteCheckpoint} (hissued : issued command)
    (h : db.promoteCheckpoint command commits = .ok (row, db')) : Change issued db db' := by
  obtain ⟨r, r', hr, hm, -, rfl⟩ := updateThread_ok h
  obtain ⟨-, rfl⟩ | ⟨-, -, hc, hv, -, -, rfl⟩ := ThreadRecord.promoteCheckpoint_ok hm
  · exact Change.steered hr ⟨rfl, rfl, rfl, rfl⟩
  · exact Change.promoted hr hc hv hissued

theorem markResumed_change (h : db.markResumed t key w commits = .ok (row, db')) : Change issued db db' := by
  obtain ⟨r, r', hr, hm, -, rfl⟩ := updateThread_ok h
  exact Change.steered hr (markResumed_steered hm)

theorem markTerminal_change
    (h : db.markTerminal t key w node code now commits = .ok (row, db')) : Change issued db db' := by
  obtain ⟨r, r', hr, hm, -, rfl⟩ := updateThread_ok h
  exact Change.steered hr (markTerminal_steered hm)

/-! ### What no call undoes -/

/-- The order in which databases follow each other. -/
structure Evolves (db db' : Db) : Prop where
  threads : ∀ t r, db.threads t = some r → ∃ r', db'.threads t = some r' ∧ Advances r r'
  rows : ∀ ov row, db.ledger.find ov = some row →
    ∃ row', db'.ledger.find ov = some row' ∧ RuntimeOverride.Continues row row'
  store : ∀ k record, db.store k = some record → db'.store k = some record

theorem Evolves.refl (db : Db) : Evolves db db :=
  ⟨fun _ r h => ⟨r, h, Advances.refl r⟩, fun _ row h => ⟨row, h, RuntimeOverride.Continues.refl row⟩,
    fun _ _ h => h⟩

theorem Evolves.trans {a b c : Db} (h : Evolves a b) (h' : Evolves b c) : Evolves a c where
  threads t r hr := by
    obtain ⟨r₁, hr₁, hadv⟩ := h.threads t r hr
    obtain ⟨r₂, hr₂, hadv'⟩ := h'.threads t r₁ hr₁
    exact ⟨r₂, hr₂, hadv.trans hadv'⟩
  rows ov row hrow := by
    obtain ⟨row₁, hrow₁, hcont⟩ := h.rows ov row hrow
    obtain ⟨row₂, hrow₂, hcont'⟩ := h'.rows ov row₁ hrow₁
    exact ⟨row₂, hrow₂, hcont.trans hcont'⟩
  store k record hk := h'.store k record (h.store k record hk)

theorem evolves_setThread (hr : db.threads t = some r)
    (hadv : Advances r r') : Evolves db (db.setThread t r') where
  threads t' r₁ hr₁ := by
    rw [threads_setThread]
    by_cases ht : t' = t
    · subst ht
      rw [hr, Option.some.injEq] at hr₁
      subst hr₁
      exact ⟨r', if_pos rfl, hadv⟩
    · exact ⟨r₁, by rw [if_neg ht, hr₁], Advances.refl r₁⟩
  rows ov row hrow := ⟨row, hrow, RuntimeOverride.Continues.refl row⟩
  store _ _ h := h

theorem evolves_setRow {row : RuntimeOverride} (hrow : db.ledger.find row'.overrideId = some row)
    (hcont : RuntimeOverride.Continues row row') : Evolves db (db.setRow row') where
  threads t r hr := ⟨r, hr, Advances.refl r⟩
  rows ov row₁ hrow₁ := by
    by_cases hov : ov = row'.overrideId
    · subst hov
      rw [hrow, Option.some.injEq] at hrow₁
      subst hrow₁
      exact ⟨row', Table.find_replace_self hrow, hcont⟩
    · refine ⟨row₁, ?_, RuntimeOverride.Continues.refl row₁⟩
      show (db.ledger.replace row').find ov = some row₁
      rw [Table.find_replace_ne _ _ hov, hrow₁]
  store _ _ h := h

theorem Evolves.congr {db₁ db₂ : Db} (h : Evolves db db₁) (ht : db₂.threads = db₁.threads)
    (hl : db₂.ledger = db₁.ledger) (hs : db₂.store = db₁.store) : Evolves db db₂ where
  threads := by
    rw [ht]
    exact h.threads
  rows := by
    rw [hl]
    exact h.rows
  store := by
    rw [hs]
    exact h.store

theorem Change.evolves (h : Change issued db db') : Evolves db db' := by
  cases h with
  | same => exact Evolves.refl db
  | reserved ht hadd =>
    refine ⟨fun _ r hr => ⟨r, hr, Advances.refl r⟩, fun ov row hrow => ?_, fun _ _ h => h⟩
    refine ⟨row, ?_, RuntimeOverride.Continues.refl row⟩
    rw [Table.find_add hadd, if_neg, hrow]
    rintro rfl
    rw [Table.find_none_of_add hadd] at hrow
    cases hrow
  | rewrote hrow hcont _ => exact evolves_setRow hrow hcont
  | steered hr hsteer => exact (evolves_setThread hr hsteer.advances).congr rfl rfl rfl
  | promoted hr _ _ _ => exact evolves_setThread hr (promoted_advances _ _)
  | @applied row t c size now hrow ht _ =>
    have hfirst : Evolves db (db.setRow (row.applyPromotion (t.row.stateVersion + 1) now)) :=
      evolves_setRow hrow (RuntimeOverride.applyPromotion_continues row _ _)
    have hthread : (db.setRow (row.applyPromotion (t.row.stateVersion + 1) now)).threads
        row.threadId = some t := ht
    have hsecond := evolves_setThread hthread (applyOverride_advances t row c size)
    exact (hfirst.trans hsecond).congr (threads_lower _ _ _) (ledger_lower _ _ _)
      (store_lower _ _ _)
  | saved hs =>
    obtain ⟨hfree, -, rfl⟩ := saveCheckpoint_eq_some.mp hs
    refine ⟨fun _ r hr => ⟨r, hr, Advances.refl r⟩,
      fun _ row hrow => ⟨row, hrow, RuntimeOverride.Continues.refl row⟩, fun k record hk => ?_⟩
    show Function.update db.store _ _ k = some record
    rw [Function.update_apply, if_neg]
    · exact hk
    · rintro rfl
      rw [hfree] at hk
      cases hk
  | created hnone =>
    refine ⟨fun t' r hr => ⟨r, ?_, Advances.refl r⟩,
      fun _ row hrow => ⟨row, hrow, RuntimeOverride.Continues.refl row⟩, fun _ _ h => h⟩
    rw [threads_setThread, if_neg, hr]
    rintro rfl
    rw [hnone] at hr
    cases hr

/-! ### The arithmetic of the version -/

def appliedCount (db : Db) (threadId : String) : ℕ :=
  db.ledger.count fun row => decide (row.threadId = threadId ∧ row.status = .applied)

/-- The version of every thread counts its promoted checkpoints and its applied overrides. -/
def Balanced (db : Db) : Prop :=
  ∀ t r, db.threads t = some r →
    r.row.stateVersion = r.row.checkpointCount + db.appliedCount t

theorem appliedCount_setRow {row : RuntimeOverride} (hrow : db.ledger.find row'.overrideId = some row)
    (hthread : row'.threadId = row.threadId) (happ : row'.status = .applied ↔ row.status = .applied)
    (t : String) : (db.setRow row').appliedCount t = db.appliedCount t := by
  refine Table.count_replace_of_eq _ hrow ?_
  rw [hthread]
  simp only [happ]

theorem appliedCount_apply {row : RuntimeOverride} (hrow : db.ledger.find row'.overrideId = some row)
    (hthread : row'.threadId = row.threadId) (hold : row.status ≠ .applied) (hnew : row'.status = .applied)
    (t : String) :
    (db.setRow row').appliedCount t = db.appliedCount t + if t = row.threadId then 1 else 0 := by
  by_cases ht : t = row.threadId
  · rw [if_pos ht]
    refine Table.count_replace_of_gain _ hrow ?_ ?_
    · simp [hold]
    · simp [hnew, hthread, ht]
  · rw [if_neg ht, Nat.add_zero]
    refine Table.count_replace_of_eq _ hrow ?_
    have hne : row.threadId ≠ t := fun h => ht h.symm
    simp [hthread, hne]

/-- Every change keeps versions and counts in balance. -/
theorem Change.balanced (h : Change issued db db') (hb : Balanced db)
    (hfresh : ∀ row ∈ db.ledger.rows, db.threads row.threadId ≠ none) : Balanced db' := by
  cases h with
  | same => exact hb
  | reserved ht hadd =>
    intro t r hr
    rw [hb t r hr]
    show _ = _ + Table.count _ _
    rw [Table.count_add hadd]
    simp [RuntimeOverride.reserve, appliedCount]
  | rewrote hrow hcont happ =>
    intro t r hr
    rw [appliedCount_setRow hrow hcont.request.threadId happ]
    exact hb t r hr
  | @steered t r r' fence hr hsteer =>
    intro t' r₁ hr₁
    have hr₁' : (db.setThread t r').threads t' = some r₁ := hr₁
    rw [threads_setThread] at hr₁'
    split at hr₁'
    · rename_i ht
      cases hr₁'
      subst ht
      rw [hsteer.version, hsteer.count]
      exact hb _ _ hr
    · exact hb t' r₁ hr₁'
  | @promoted r command hr _ _ _ =>
    intro t' r₁ hr₁
    rw [threads_setThread] at hr₁
    split at hr₁
    · rename_i ht
      cases hr₁
      subst ht
      have hold := hb _ _ hr
      show r.row.stateVersion + 1 = r.row.checkpointCount + 1 + db.appliedCount command.threadId
      omega
    · exact hb t' r₁ hr₁
  | @applied row t c size now hrow ht hp =>
    have hstatus : row.status ≠ .applied := by
      rcases (RuntimeOverride.promotable_iff.mp hp).1 with h | h <;> rw [h] <;> simp
    intro t' r₁ hr₁
    rw [threads_lower, threads_setThread] at hr₁
    have hcount : (((db.setRow (row.applyPromotion (t.row.stateVersion + 1) now)).setThread
        row.threadId (applyOverride t row c size)).lower row.threadId row.overrideId).appliedCount t'
          = db.appliedCount t' + if t' = row.threadId then 1 else 0 := by
      have hfound : db.ledger.find
          (row.applyPromotion (t.row.stateVersion + 1) now).overrideId = some row := hrow
      rw [← appliedCount_apply hfound rfl hstatus rfl t']
      simp [appliedCount]
    rw [hcount]
    split at hr₁
    · rename_i ht'
      cases hr₁
      rw [if_pos ht', ht']
      have hold := hb _ _ ht
      show t.row.stateVersion + 1 = t.row.checkpointCount + (db.appliedCount row.threadId + 1)
      omega
    · rename_i ht'
      rw [if_neg ht', Nat.add_zero]
      exact hb t' r₁ hr₁
  | saved hs =>
    obtain ⟨-, -, rfl⟩ := saveCheckpoint_eq_some.mp hs
    exact hb
  | @created taskId t hnone =>
    intro t' r₁ hr₁
    rw [threads_setThread] at hr₁
    split at hr₁
    · rename_i ht
      cases hr₁
      subst ht
      -- a thread that is only now created has no override yet
      show 0 = 0 + Table.count _ _
      rw [Nat.zero_add]
      symm
      refine List.countP_eq_zero.mpr fun row hmem hrow => ?_
      simp only [decide_eq_true_eq] at hrow
      exact hfresh row hmem (hrow.1 ▸ hnone)
    · exact hb t' r₁ hr₁

/-- Every ledger row belongs to a thread. -/
def Linked (db : Db) : Prop := ∀ row ∈ db.ledger.rows, db.threads row.threadId ≠ none

theorem Evolves.threads_ne_none (h : Evolves db db') (ht : db.threads t ≠ none) : db'.threads t ≠ none := by
  obtain ⟨r, hr⟩ := Option.ne_none_iff_exists'.mp ht
  obtain ⟨r', hr', -⟩ := h.threads t r hr
  rw [hr']
  exact Option.some_ne_none r'

theorem mem_setRow {row : RuntimeOverride} (hmem : row ∈ (db.setRow row').ledger.rows) :
    row = row' ∨ row ∈ db.ledger.rows := by
  obtain ⟨row₀, h₀, rfl⟩ := List.mem_map.mp hmem
  by_cases hk : row₀.overrideId = row'.overrideId
  · exact .inl (if_pos hk)
  · refine .inr ?_
    rw [if_neg hk]
    exact h₀

theorem Change.linked (h : Change issued db db') (hl : Linked db) : Linked db' := by
  have hev := h.evolves
  have hkeep : ∀ row ∈ db.ledger.rows, db'.threads row.threadId ≠ none := fun row hmem =>
    hev.threads_ne_none (hl row hmem)
  cases h with
  | same => exact hl
  | @reserved c t expires ledger ht hadd =>
    intro row hmem
    have hmem' : row ∈ ledger.rows := hmem
    rw [Table.rows_add hadd, List.mem_append, List.mem_singleton] at hmem'
    rcases hmem' with hmem' | rfl
    · exact hkeep row hmem'
    · show db.threads c.threadId ≠ none
      rw [ht]
      exact Option.some_ne_none t
  | @rewrote row row' hrow hcont _ =>
    intro row₁ hmem
    rcases mem_setRow hmem with rfl | hmem
    · rw [hcont.request.threadId]
      exact hkeep row (Table.find_mem hrow)
    · exact hkeep row₁ hmem
  | steered _ _ => exact hkeep
  | promoted _ _ _ _ => exact hkeep
  | @applied row t c size now hrow _ _ =>
    intro row₁ hmem
    rw [ledger_lower] at hmem
    rcases mem_setRow hmem with rfl | hmem
    · exact hkeep row (Table.find_mem hrow)
    · exact hkeep row₁ hmem
  | saved hs =>
    obtain ⟨-, -, rfl⟩ := saveCheckpoint_eq_some.mp hs
    exact hkeep
  | created _ => exact hkeep

end Db

/-! ### Every step is a change -/

variable {issued : PromoteCheckpoint → Prop}

variable {st st' : ApplyState} {o : Outcome} {locks locks' : Locks}

namespace ApplyState

variable {config : RuntimeConfig} {c : ℕ} {db db' : Db}

theorem step_change
    (h : step config c o db locks st = some (st', db', locks')) : Db.Change issued db db' := by
  cases step_moves h with
  | begun hb | repairing hb | recovering hb | answered hb => exact Db.beginOrReplay_change hb
  | released hrel | undone hrel | freed hrel => exact Db.releaseOverrideBoundary_change hrel
  | claimed hclaim => exact Db.claimOverrideBoundary_change hclaim
  | marked hm => exact Db.markApplying_change hm
  | invalid hs | updated hs => exact Db.Change.saved hs
  | attached ha => exact Db.attachResultCheckpoint_change ha
  | promoted hp => exact Db.promoteApplied_change hp
  | published hm => exact Db.markEventStatus_change hm
  | closed hdb | ended hdb =>
    obtain rfl | ⟨row, hclose⟩ := hdb
    · exact Db.Change.same
    · exact Db.close_change hclose
  | _ => exact Db.Change.same

theorem step_evolves (h : step config c o db locks st = some (st', db', locks')) : Db.Evolves db db' := by
  have hchange : Db.Change (fun _ => False) db db' := step_change h
  exact hchange.evolves

end ApplyState

/-- A reconciliation changes the database in one of these ways. -/
theorem ReconcileState.step_change {config : RuntimeConfig} {db db' : Db} {st st' : ReconcileState}
    (h : step config o db st = some (st', db')) : Db.Change issued db db' := by
  cases st with
  | idle => cases h
  | done result => cases h
  | crashed => cases h
  | fetching ov => cases h; exact Db.Change.same
  | comparing item => cases h; exact Db.Change.same
  | loadingSource item a b => cases h; exact Db.Change.same
  | loadingResult item a b => cases h; exact Db.Change.same
  | promoting item result =>
    have hdb : (promote item result o db).2 = db' := congrArg Prod.snd (Option.some.inj h)
    rw [← hdb]
    unfold promote
    split
    · exact Db.Change.same
    · exact Db.Change.same
    · rename_i hok
      exact Db.promoteApplied_change hok
  | closing ov write =>
    have hdb : (close ov write o db).2 = db' := congrArg Prod.snd (Option.some.inj h)
    rw [← hdb]
    unfold close
    split
    · exact Db.Change.same
    · rename_i hok
      exact Db.close_change hok

def WorkerState.command : WorkerState → Option PromoteCheckpoint
  | .reconciling command | .promoting command _ => some command
  | _ => none

/-- A worker promotes nothing but the command issued to it. -/
theorem WorkerState.step_change {config : WorkerConfig} {o : WorkerOutcome} {db db' : Db}
    {st st' : WorkerState} (hissued : ∀ command, st.command = some command → issued command)
    (h : step config o db st = some (st', db')) : Db.Change issued db db' := by
  cases st with
  | idle => cases h
  | finished => cases h
  | fetching t => cases h; exact Db.Change.same
  | listing thread =>
    simp only [step] at h
    split at h
    · cases h; exact Db.Change.same
    · cases h
  | streaming current key => cases h; exact Db.Change.same
  | visiting current nodes =>
    simp only [step] at h
    split at h
    · cases h; exact Db.Change.same
    · cases h
  | reconciling command =>
    have hdb : (reconcile command o db).2 = db' := congrArg Prod.snd (Option.some.inj h)
    rw [← hdb]
    unfold reconcile
    split
    · exact Db.Change.same
    · rename_i hok
      exact Db.promoteCheckpoint_change (hissued command rfl) hok
  | deciding thread =>
    have hdb : (WorkerState.decide config thread db).2 = db' :=
      congrArg Prod.snd (Option.some.inj h)
    rw [← hdb]
    unfold WorkerState.decide
    split
    · exact Db.Change.same
    · split
      · split
        · exact Db.Change.same
        · split
          · exact Db.Change.same
          · rename_i hok
            exact Db.claimNextNode_change hok
      · exact Db.Change.same
  | resuming current key nodes =>
    have hdb : (markResumed config current key nodes o db).2 = db' :=
      congrArg Prod.snd (Option.some.inj h)
    rw [← hdb]
    unfold markResumed
    split
    · exact Db.Change.same
    · rename_i hok
      exact Db.markResumed_change hok
  | promoting command nodes =>
    have hdb : (promote command nodes o db).2 = db' := congrArg Prod.snd (Option.some.inj h)
    rw [← hdb]
    unfold promote
    split
    · exact Db.Change.same
    · rename_i hok
      exact Db.promoteCheckpoint_change (hissued command rfl) hok

namespace System

variable {config : WorkerConfig}

def Issued (s : System) (command : PromoteCheckpoint) : Prop :=
  ∃ w, (s.workers w).command = some command

variable {s s' : System} {a : Action}

/-- The override side changes the database in its own ways only: no worker's command is promoted. -/
theorem step_change_overrides {issued : PromoteCheckpoint → Prop} (ha : a.overrides = true)
    (h : step config s a = some s') : Db.Change issued s.db s'.db := by
  cases a with
  | beginApply c input =>
    simp only [step] at h
    split at h
    · cases h; exact Db.Change.same
    · cases h
  | advance c o =>
    obtain ⟨⟨st, db, locks⟩, hstep, rfl⟩ := Option.map_eq_some_iff.mp h
    exact ApplyState.step_change hstep
  | crash c =>
    simp only [step] at h
    split at h
    · cases h; exact Db.Change.same
    · cases h
  | expireLock t => cases h; exact Db.Change.same
  | beginReconcile r ov =>
    simp only [step] at h
    split at h
    · cases h; exact Db.Change.same
    · cases h
  | advanceReconcile r o =>
    obtain ⟨⟨st, db⟩, hstep, rfl⟩ := Option.map_eq_some_iff.mp h
    exact ReconcileState.step_change hstep
  | crashReconcile r =>
    simp only [step] at h
    split at h
    · cases h; exact Db.Change.same
    · cases h
  | _ => cases ha

/-- Every step of the system is one of these changes. -/
theorem step_change (h : step config s a = some s') : Db.Change s.Issued s.db s'.db := by
  cases a with
  | beginWorker w t =>
    simp only [step] at h
    split at h
    · cases h; exact Db.Change.same
    · cases h
  | advanceWorker w o =>
    obtain ⟨⟨st, db⟩, hstep, rfl⟩ := Option.map_eq_some_iff.mp h
    exact WorkerState.step_change (fun command hc => ⟨w, hc⟩) hstep
  | crashWorker w => cases h; exact Db.Change.same
  | saveCheckpoint record =>
    obtain ⟨db, hs, rfl⟩ := Option.map_eq_some_iff.mp h
    exact Db.Change.saved hs
  | createThread taskId t =>
    obtain ⟨db, hs, rfl⟩ := Option.map_eq_some_iff.mp h
    unfold Db.createThread at hs
    split at hs
    · cases hs
    · rename_i hnone
      cases hs
      exact Db.Change.created hnone
  | terminate t key w node code now commits =>
    simp only [step] at h
    cases hm : s.db.markTerminal t key w node code now commits with
    | error e => rw [hm] at h; cases h
    | ok p =>
      rw [hm] at h
      cases h
      exact Db.markTerminal_change hm
  | _ => exact step_change_overrides rfl h

theorem step_evolves (h : step config s a = some s') :
    Db.Evolves s.db s'.db := (step_change h).evolves

end System

end CountyFlow.Override
