import CountyFlow.Streams.Group

/-!
# What becomes of a pending message

A message that has been delivered and is not acknowledged waits for a round of `recover_once`.  Every
round scans from `0-0`; a round that claims the message claims its batch with it.
-/

namespace CountyFlow.Streams

open CountyFlow.Core CountyFlow.Lib Function
open CountyFlow.Events (StreamId idText idText_injective)
open CountyFlow.Security (RedisReply)

variable {consumer : String} {a : GroupAction} {idle counts : List (String × ℕ)} {as : List GroupAction}

namespace Group

variable {v : Settings}

/-- `_recover_message` has been called with the message. -/
def Handed (id : StreamId) (s : Group) : Prop := ∃ message ∈ s.recovered, message.messageId = idText id

/-- The message is in the hands of a worker that recovers it, or has been handed on. -/
def Given (id : StreamId) (s : Group) : Prop :=
  (∃ consumer, ∃ message ∈ s.recovering consumer, message.messageId = idText id) ∨ s.Handed id

/-- The workers go on, Redis answers their claims, and nobody acknowledges the message. -/
def Calm (id : StreamId) : GroupAction → Prop
  | .claim _ reply _ _ => reply = .done
  | .ack id' => id' ≠ id
  | .stop _ => False
  | .add _ _ | .elapse _ | .read _ _ | .next _ => True

/-- A round of `recover_once`. -/
def isClaim : GroupAction → Bool
  | .claim .. => true
  | .add .. | .elapse .. | .read .. | .next .. | .ack .. | .stop .. => false

/-- If the round claims the entry, it can read its batch. -/
def ClearFor (v : Settings) (entry : Entry) (s : Group) : GroupAction → Prop
  | .claim consumer _ _ _ => entry ∈ s.batch v consumer → Readable v.streamName (s.batch v consumer)
  | .add .. | .elapse .. | .read .. | .next .. | .ack .. | .stop .. => True

/-! ### Steps -/

/-- What a step other than a claim does: entries are added at the end or leave, nobody is given the
message. -/
structure Aside (id : StreamId) (s s' : Group) : Prop where
  now : s.now ≤ s'.now
  given : s'.Given id ↔ s.Given id
  pending : (∃ new, s'.pending = s.pending ++ new ∧ ∀ p ∈ new, p.deliveredAt = s.now) ∨
    ∃ id' ≠ id, s'.pending = s.pending.filter fun p => p.entry.1 ≠ id'

structure Claimed (v : Settings) (consumer : String) (idle counts : List (String × ℕ)) (s s' : Group) :
    Prop where
  free : s.recovering consumer = []
  now : s'.now = s.now
  pending : s'.pending = (s.autoclaimed v consumer).1
  recovering : s'.recovering = update s.recovering consumer
    (received (claimPending v.streamName (s.batch v consumer) idle counts))
  recovered : s'.recovered = s.recovered

theorem Aside.of_same {id : StreamId} {s s' : Group} (hnow : s.now ≤ s'.now)
    (hpending : s'.pending = s.pending) (hrecovering : s'.recovering = s.recovering)
    (hrecovered : s'.recovered = s.recovered) : Aside id s s' := by
  refine ⟨hnow, ?_, Or.inl ⟨[], by simpa using hpending, fun p hp => absurd hp List.not_mem_nil⟩⟩
  simp only [Given, Handed, hrecovering, hrecovered]

theorem given_takeNext {id : StreamId} {s : Group} {message : StreamMessage} {rest : List StreamMessage}
    (h : s.recovering consumer = message :: rest) :
    Given id { s with
      recovering := update s.recovering consumer rest
      recovered := s.recovered ++ [message] } ↔ s.Given id := by
  have hother : ∀ c, c ≠ consumer → update s.recovering consumer rest c = s.recovering c :=
    fun c hc => update_of_ne hc _ _
  constructor
  · rintro (⟨c, m, hm, hid⟩ | ⟨m, hm, hid⟩)
    · by_cases hc : c = consumer
      · subst hc
        simp only [update_self] at hm
        exact .inl ⟨c, m, by rw [h]; exact List.mem_cons_of_mem _ hm, hid⟩
      · simp only [hother c hc] at hm
        exact .inl ⟨c, m, hm, hid⟩
    · rcases List.mem_append.mp hm with hm | hm
      · exact .inr ⟨m, hm, hid⟩
      · rw [List.mem_singleton.mp hm] at hid
        exact .inl ⟨consumer, message, by rw [h]; exact List.mem_cons_self, hid⟩
  · rintro (⟨c, m, hm, hid⟩ | ⟨m, hm, hid⟩)
    · by_cases hc : c = consumer
      · subst hc
        rw [h] at hm
        rcases List.mem_cons.mp hm with rfl | hm
        · exact .inr ⟨m, List.mem_append_right _ List.mem_cons_self, hid⟩
        · exact .inl ⟨c, m, by simpa using hm, hid⟩
      · exact .inl ⟨c, m, by simpa only [hother c hc] using hm, hid⟩
    · exact .inr ⟨m, List.mem_append_left _ hm, hid⟩

/-- A calm step leaves the message aside, or is a claim. -/
theorem calm_step {id : StreamId} {s s' : Group} (hcalm : Calm id a) (hstep : step v s a = some s') :
    (isClaim a = false ∧ Aside id s s') ∨
      ∃ consumer idle counts, a = .claim consumer .done idle counts ∧
      Claimed v consumer idle counts s s' := by
  cases a with
  | add id' fields =>
    simp only [step] at hstep
    split at hstep
    · cases hstep
      exact .inl ⟨rfl, Aside.of_same le_rfl rfl rfl rfl⟩
    · cases hstep
  | elapse ms =>
    cases hstep
    exact .inl ⟨rfl, Aside.of_same (Nat.le_add_right _ _) rfl rfl rfl⟩
  | read consumer reply =>
    have hdelivered : ∀ p ∈ (s.undelivered.take v.readCount).map
        (fun entry => (⟨entry, consumer, s.now, 1⟩ : PendingEntry)), p.deliveredAt = s.now := by
      intro p hp
      obtain ⟨entry, -, rfl⟩ := List.mem_map.mp hp
      rfl
    simp only [step] at hstep
    split at hstep
    · refine .inl ⟨rfl, ?_⟩
      cases reply with
      | failed =>
        cases hstep
        exact Aside.of_same le_rfl rfl rfl rfl
      | lost =>
        cases hstep
        exact ⟨le_rfl, Iff.rfl, Or.inl ⟨_, rfl, hdelivered⟩⟩
      | done =>
        cases hstep
        exact ⟨le_rfl, Iff.rfl, Or.inl ⟨_, rfl, hdelivered⟩⟩
    · cases hstep
  | claim consumer reply idle counts =>
    have hdone : reply = .done := hcalm
    subst hdone
    simp only [step] at hstep
    split at hstep
    · rename_i hfree
      cases hstep
      exact .inr ⟨consumer, idle, counts, rfl, hfree.2, rfl, rfl, rfl, rfl⟩
    · cases hstep
  | next consumer =>
    simp only [step, takeNext] at hstep
    split at hstep
    · cases hstep
      exact .inl ⟨rfl, Aside.of_same le_rfl rfl rfl rfl⟩
    · rename_i hrecovering
      cases hstep
      refine .inl ⟨rfl, le_rfl, given_takeNext hrecovering, Or.inl ⟨[], ?_, ?_⟩⟩
      · simp
      · exact fun p hp => absurd hp List.not_mem_nil
    · cases hstep
  | ack id' =>
    cases hstep
    exact .inl ⟨rfl, le_rfl, Iff.rfl, Or.inr ⟨id', hcalm, rfl⟩⟩
  | stop consumer => exact hcalm.elim

theorem Claimed.given {id : StreamId} {s s' : Group} (h : Claimed v consumer idle counts s s') : s'.Given id ↔
      s.Given id ∨ (Readable v.streamName (s.batch v consumer) ∧ id ∈ (s.batch v consumer).map Prod.fst) := by
  have hnew : (∃ message ∈ received (claimPending v.streamName (s.batch v consumer) idle counts),
      message.messageId = idText id) ↔
      Readable v.streamName (s.batch v consumer) ∧ id ∈ (s.batch v consumer).map Prod.fst := by
    simp only [mem_claimPending]
    constructor
    · rintro ⟨message, ⟨hreadable, entry, hentry, task, htask, rfl⟩, hid⟩
      exact ⟨hreadable, List.mem_map.mpr ⟨entry, hentry, idText_injective hid⟩⟩
    · rintro ⟨hreadable, hid⟩
      obtain ⟨entry, hentry, rfl⟩ := List.mem_map.mp hid
      obtain ⟨task, htask⟩ := accepted_iff.mp (hreadable.2 entry hentry)
      exact ⟨_, ⟨hreadable, entry, hentry, task, htask, rfl⟩, rfl⟩
  rw [← hnew]
  simp only [Given, Handed, h.recovered, h.recovering]
  constructor
  · rintro (⟨c, m, hm, hid⟩ | hhanded)
    · by_cases hc : c = consumer
      · subst hc
        rw [update_self] at hm
        exact .inr ⟨m, hm, hid⟩
      · rw [update_of_ne hc] at hm
        exact .inl (Or.inl ⟨c, m, hm, hid⟩)
    · exact .inl (Or.inr hhanded)
  · rintro ((⟨c, m, hm, hid⟩ | hhanded) | ⟨m, hm, hid⟩)
    · have hc : c ≠ consumer := by
        rintro rfl
        rw [h.free] at hm
        cases hm
      exact .inl ⟨c, m, by rwa [update_of_ne hc], hid⟩
    · exact .inr hhanded
    · exact .inl ⟨consumer, m, by rwa [update_self], hid⟩

theorem step_now {id : StreamId} {s s' : Group} (hcalm : Calm id a)
    (hstep : step v s a = some s') : s.now ≤ s'.now := by
  rcases calm_step hcalm hstep with ⟨-, haside⟩ | ⟨consumer, idle, counts, -, hclaimed⟩
  · exact haside.now
  · exact hclaimed.now.ge

theorem run_now {id : StreamId} {s s' : Group} (hcalm : ∀ a ∈ as, Calm id a)
    (hrun : exec (step v) s as = some s') : s.now ≤ s'.now := by
  induction as generalizing s with
  | nil =>
    rw [exec_nil, Option.some.injEq] at hrun
    exact hrun ▸ le_rfl
  | cons a as ih =>
    obtain ⟨m, hm, hrest⟩ := exec_cons_eq_some.mp hrun
    exact (step_now (hcalm a List.mem_cons_self) hm).trans
      (ih (fun b hb => hcalm b (List.mem_cons_of_mem a hb)) hrest)

/-! ### Delivered again -/

/-- Up to the horizon nobody can claim the message. -/
def Held (v : Settings) (horizon : ℕ) (id : StreamId) (s : Group) : Prop :=
  ∀ p ∈ s.pending, p.entry.1 = id → horizon < p.deliveredAt + v.pendingMinIdle

section Held

variable {horizon : ℕ} {id : StreamId} {s s' : Group}

theorem Held.notMem_batch (h : Held v horizon id s) (hnow : s.now ≤ horizon) (consumer : String) :
    id ∉ (s.batch v consumer).map Prod.fst := by
  intro hid
  obtain ⟨entry, hentry, rfl⟩ := List.mem_map.mp hid
  obtain ⟨p, hp, rfl, hidle⟩ := autoclaim_idle hentry
  have hlate := h p hp rfl
  omega

theorem Held.step (h : Held v horizon id s) (hhorizon : horizon < s.now + v.pendingMinIdle)
    (hcalm : Calm id a) (hstep : Group.step v s a = some s') : Held v horizon id s' := by
  intro p hp hid
  rcases calm_step hcalm hstep with ⟨-, haside⟩ | ⟨consumer, idle, counts, -, hclaimed⟩
  · rcases haside.pending with ⟨new, hpending, hnew⟩ | ⟨id', -, hpending⟩
    · rw [hpending] at hp
      rcases List.mem_append.mp hp with hp | hp
      · exact h p hp hid
      · rw [hnew p hp]
        exact hhorizon
    · rw [hpending] at hp
      exact h p (List.mem_filter.mp hp).1 hid
  · rw [hclaimed.pending] at hp
    rcases autoclaim_delivered hp with hp | hnow
    · exact h p hp hid
    · rw [hnow]
      exact hhorizon

theorem Held.run {entry : Entry} (h : Held v s'.now entry.1 s) (hhorizon : s'.now < s.now + v.pendingMinIdle)
    (hcalm : ∀ a ∈ as, Calm entry.1 a) (hrun : exec (Group.step v) s as = some s') :
    (s'.Given entry.1 ↔ s.Given entry.1) ∧ Meets (Group.step v) (ClearFor v entry) s as := by
  induction as generalizing s with
  | nil =>
    rw [exec_nil, Option.some.injEq] at hrun
    exact ⟨by rw [hrun], trivial⟩
  | cons a as ih =>
    have hnow : s.now ≤ s'.now := run_now hcalm hrun
    obtain ⟨m, hm, hrest⟩ := exec_cons_eq_some.mp hrun
    have hcalm' : Calm entry.1 a := hcalm a List.mem_cons_self
    have hlater := step_now hcalm' hm
    obtain ⟨hgiven, hclear⟩ := ih (h.step hhorizon hcalm' hm) (by omega)
      (fun b hb => hcalm b (List.mem_cons_of_mem a hb)) hrest
    have hnext : ∀ k, Group.step v s a = some k → Meets (Group.step v) (ClearFor v entry) k as := by
      intro k hk
      obtain rfl := Option.some.inj (hm.symm.trans hk)
      exact hclear
    rcases calm_step hcalm' hm with ⟨hother, haside⟩ | ⟨consumer, idle, counts, rfl, hclaimed⟩
    · refine ⟨hgiven.trans haside.given, ?_, hnext⟩
      cases a with
      | claim => cases hother
      | _ => trivial
    · have hnot := h.notMem_batch hnow consumer
      refine ⟨?_, fun hmem => absurd (List.mem_map_of_mem hmem) hnot, hnext⟩
      rw [hgiven, hclaimed.given]
      exact or_iff_left fun hclaim => hnot hclaim.2

end Held

/-! ### Waiting -/

/-- The message waits: it is idle, the scan reaches it, and at most so many of the entries before it can be
claimed up to the horizon. -/
def Waiting (v : Settings) (horizon left : ℕ) (entry : Entry) (s : Group) : Prop :=
  ∃ ahead p behind, s.pending = ahead ++ p :: behind ∧ p.entry = entry ∧
    p.deliveredAt + v.pendingMinIdle ≤ s.now ∧ ahead.length < 10 * v.recoveryCount ∧
    ahead.countP (due horizon v.pendingMinIdle) ≤ left

section Waiting

variable {horizon left : ℕ} {entry : Entry} {s s' : Group}

theorem Waiting.aside (h : Waiting v horizon left entry s) (haside : Aside entry.1 s s') :
    Waiting v horizon left entry s' := by
  obtain ⟨ahead, p, behind, hpending, rfl, hidle, hreached, hleft⟩ := h
  have hnow := haside.now
  rcases haside.pending with ⟨new, hpending', -⟩ | ⟨id', hid, hpending'⟩
  · refine ⟨ahead, p, behind ++ new, ?_, rfl, by omega, hreached, hleft⟩
    rw [hpending', hpending, List.append_assoc, List.cons_append]
  · have hkept : decide (p.entry.1 ≠ id') = true := decide_eq_true hid.symm
    refine ⟨ahead.filter fun q => q.entry.1 ≠ id', p, behind.filter fun q => q.entry.1 ≠ id', ?_, rfl,
      by omega, ?_, ?_⟩
    · rw [hpending', hpending]
      simp only [List.filter_append, List.filter_cons, hkept, if_true]
    · exact (List.length_filter_le _ _).trans_lt hreached
    · exact (List.Sublist.countP_le List.filter_sublist).trans hleft

theorem Ordered.pending_nodup (h : s.Ordered) : (s.pending.map fun p => p.entry.1).Nodup := by
  have hpairwise := (List.pairwise_append.mp h.sorted).1
  exact hpairwise.imp fun hlt => ne_of_lt hlt

theorem Waiting.claim (h : Waiting v horizon left entry s) (hordered : s.Ordered) (hnow : s.now ≤ horizon)
    (hhorizon : horizon < s.now + v.pendingMinIdle) (hclaimed : Claimed v consumer idle counts s s') :
    (entry ∈ s.batch v consumer ∧ Held v horizon entry.1 s') ∨
      (entry.1 ∉ (s.batch v consumer).map Prod.fst ∧ v.recoveryCount ≤ left ∧
        Waiting v horizon (left - v.recoveryCount) entry s') := by
  obtain ⟨ahead, p, behind, hpending, rfl, hidle, hreached, hleft⟩ := h
  have hnodup := hordered.pending_nodup
  have hcases := autoclaim_cases consumer v.recoveryCount behind hnow hhorizon hidle hreached
  rw [← hpending] at hcases
  rcases hcases with ⟨hmem, ahead', behind', heq, -⟩ | ⟨ahead', heq, hlength, hcount⟩
  · refine .inl ⟨hmem, fun q hq hid => ?_⟩
    have hnodup' : (s'.pending.map fun p => p.entry.1).Nodup := by
      rw [hclaimed.pending, ids_autoclaimed]
      exact hnodup
    have hpending' : s'.pending = ahead' ++ p.claim s.now consumer :: behind' := hclaimed.pending.trans heq
    have hin : p.claim s.now consumer ∈ s'.pending := by
      rw [hpending']
      exact List.mem_append_right _ List.mem_cons_self
    rw [List.inj_on_of_nodup_map hnodup' hq hin hid]
    exact hhorizon
  · have hbatch : s.batch v consumer =
        (autoclaim s.now v.pendingMinIdle consumer (10 * v.recoveryCount) v.recoveryCount ahead).2 := by
      unfold batch autoclaimed
      rw [heq]
    refine .inr ⟨?_, by omega, ahead', p, behind, ?_, rfl, ?_, ?_, by omega⟩
    · rw [hbatch]
      intro hid
      obtain ⟨e, he, hsame⟩ := List.mem_map.mp hid
      obtain ⟨q, hq, rfl, -⟩ := autoclaim_idle he
      rw [hpending, List.map_append, List.nodup_append] at hnodup
      exact hnodup.2.2 _ (List.mem_map_of_mem hq) _ (List.mem_map_of_mem List.mem_cons_self) hsame
    · exact hclaimed.pending.trans (congrArg Prod.fst heq)
    · rw [hclaimed.now]
      exact hidle
    · omega

/-- A waiting message is given out exactly if every step is clear for it. -/
theorem Waiting.run (h : Waiting v s'.now left entry s) (hordered : s.Ordered) (hungiven : ¬ s.Given entry.1)
    (hhorizon : s'.now < s.now + v.pendingMinIdle) (hcalm : ∀ a ∈ as, Calm entry.1 a)
    (hrounds : left < as.countP isClaim * v.recoveryCount) (hrun : exec (Group.step v) s as = some s') :
    s'.Given entry.1 ↔ Meets (Group.step v) (ClearFor v entry) s as := by
  induction as generalizing s left with
  | nil => simp at hrounds
  | cons a as ih =>
    have hnow : s.now ≤ s'.now := run_now hcalm hrun
    obtain ⟨m, hm, hrest⟩ := exec_cons_eq_some.mp hrun
    have hcalm' : Calm entry.1 a := hcalm a List.mem_cons_self
    have hcalms : ∀ b ∈ as, Calm entry.1 b := fun b hb => hcalm b (List.mem_cons_of_mem a hb)
    have hlater := step_now hcalm' hm
    have hordered' := step_ordered hordered hm
    have hmeets : Meets (Group.step v) (ClearFor v entry) s (a :: as) ↔
        ClearFor v entry s a ∧ Meets (Group.step v) (ClearFor v entry) m as := by
      refine ⟨fun hall => ⟨hall.1, hall.2 m hm⟩, fun hall => ⟨hall.1, fun k hk => ?_⟩⟩
      obtain rfl := Option.some.inj (hm.symm.trans hk)
      exact hall.2
    rw [hmeets]
    rcases calm_step hcalm' hm with ⟨hother, haside⟩ | ⟨consumer, idle, counts, rfl, hclaimed⟩
    · have hclear : ClearFor v entry s a := by
        cases a with
        | claim => cases hother
        | _ => trivial
      have hcount : as.countP isClaim = (a :: as).countP isClaim := by
        rw [List.countP_cons_of_neg (by simp [hother])]
      rw [ih (h.aside haside) hordered' (mt haside.given.mp hungiven) (by omega) hcalms
        (hcount ▸ hrounds) hrest]
      exact (and_iff_right hclear).symm
    · have hcount : ((GroupAction.claim consumer .done idle counts) :: as).countP isClaim =
          as.countP isClaim + 1 := List.countP_cons_of_pos rfl
      rcases h.claim hordered hnow hhorizon hclaimed with ⟨hmem, hheld⟩ | ⟨hnot, hleft, hwaiting⟩
      · obtain ⟨hgiven, hclear⟩ := hheld.run (by omega) hcalms hrest
        rw [hgiven, hclaimed.given, or_iff_right hungiven,
          and_iff_left (List.mem_map_of_mem hmem), and_iff_left hclear]
        exact ⟨fun hreadable _ => hreadable, fun hreadable => hreadable hmem⟩
      · have hungiven' : ¬ m.Given entry.1 := by
          rw [hclaimed.given]
          rintro (hgiven | hclaim)
          · exact hungiven hgiven
          · exact hnot hclaim.2
        have hrounds' : left - v.recoveryCount < as.countP isClaim * v.recoveryCount := by
          rw [hcount, Nat.add_mul, Nat.one_mul] at hrounds
          omega
        rw [ih hwaiting hordered' hungiven' (by omega) hcalms hrounds' hrest]
        exact (and_iff_right fun hmem => absurd (List.mem_map_of_mem hmem) hnot).symm

end Waiting

/-! ### The rounds of a run -/

/-- The rounds of a run reach an idle message: the workers go on, finish what they claim, and scan so often
within the idle time that every entry before the message has its turn. -/
structure Attended (v : Settings) (s s' : Group) (as : List GroupAction) (ahead : List PendingEntry)
    (p : PendingEntry) : Prop where
  calm : ∀ a ∈ as, Calm p.entry.1 a
  idle : p.deliveredAt + v.pendingMinIdle ≤ s.now
  reached : ahead.length < 10 * v.recoveryCount
  rounds : ahead.length < as.countP isClaim * v.recoveryCount
  soon : s'.now < s.now + v.pendingMinIdle
  finished : ∀ consumer, s'.recovering consumer = []

theorem recovered_iff {pre : List GroupAction} {s s' : Group} {ahead behind : List PendingEntry}
    {p : PendingEntry} (hpre : exec (step v) initial pre = some s) (hrun : exec (step v) s as = some s')
    (hpending : s.pending = ahead ++ p :: behind) (hungiven : ¬ s.Given p.entry.1)
    (hattended : Attended v s s' as ahead p) :
    s'.Handed p.entry.1 ↔ Meets (step v) (ClearFor v p.entry) s as := by
  have hwaiting : Waiting v s'.now ahead.length p.entry s :=
    ⟨ahead, p, behind, hpending, rfl, hattended.idle, hattended.reached, List.countP_le_length⟩
  rw [← hwaiting.run (ordered_of_run hpre) hungiven hattended.soon hattended.calm hattended.rounds hrun]
  refine ⟨Or.inr, fun hgiven => hgiven.resolve_left ?_⟩
  rintro ⟨consumer, message, hmessage, -⟩
  rw [hattended.finished consumer] at hmessage
  cases hmessage

end Group

open CountyFlow.Streams.Group

/-- **The accepted entries of every batch come back exactly when all of the batch is readable, or none**;
and an idle message that the rounds reach is handed to `_recover_message` exactly when the round that claims
it can read its batch. -/
theorem batches_complete_iff {v : Settings} {pre as : List GroupAction} {s s' : Group}
    {ahead behind : List PendingEntry} {p : PendingEntry} (hpre : exec (step v) initial pre = some s)
    (hrun : exec (step v) s as = some s') (hpending : s.pending = ahead ++ p :: behind)
    (hungiven : ¬ s.Given p.entry.1) (hattended : Attended v s s' as ahead p) :
    (∀ streams, (∀ batch ∈ streams, ∀ entry ∈ batch.2, ∀ task, taskOf entry.2 = .ok task →
        ⟨idText entry.1, task, none, [("stream", batch.1)]⟩ ∈ received (readGroup streams)) ↔
      (∀ batch ∈ streams, Readable batch.1 batch.2) ∨
        ∀ batch ∈ streams, ∀ entry ∈ batch.2, accepted entry = false) ∧
    (∀ entries idle counts, (∀ entry ∈ entries, ∀ task, taskOf entry.2 = .ok task →
        StreamMessage.claimed ⟨idText entry.1, task, none, [("stream", v.streamName)]⟩ idle counts ∈
          received (claimPending v.streamName entries idle counts)) ↔
      Readable v.streamName entries ∨ ∀ entry ∈ entries, accepted entry = false) ∧
    (s'.Handed p.entry.1 ↔ Meets (step v) (ClearFor v p.entry) s as) :=
  ⟨read_complete_iff, claim_complete_iff v.streamName,
    recovered_iff hpre hrun hpending hungiven hattended⟩

/-! ### A malformed entry -/

def demoSettings : Settings := ⟨"countyflow:dispatch:tasks", 1, 5000, 10⟩

def demoTask : DispatchTaskMessage :=
  ⟨"TASK-001", 1, some 10, "idem-001", "2026-08-21T00:00:00+00:00",
    ⟨"D-001", "V-001", "R-001", "rain_slippery", "rain", "NORMAL", none, none⟩, none⟩

def demoEntry (id : StreamId) : Entry := (id, some [("data", some demoTask.toJson)])

def malformedEntry (id : StreamId) : Entry := (id, some [("data", none)])

theorem taskOf_demoEntry (id : StreamId) : taskOf (demoEntry id).2 = .ok demoTask := by
  show DispatchTaskMessage.fromJson (some demoTask.toJson) = .ok demoTask
  decide +kernel

/-- The state with nobody at work. -/
def resting (lastId : StreamId) (pending : List PendingEntry) (now : ℕ) : Group :=
  ⟨[], lastId, pending, now, fun _ => [], fun _ => [], []⟩

/-- Two entries are added and read, and the worker that read them stops. -/
def opening (first second : List (String × Option Value)) : List GroupAction :=
  [.add (toLex (1, 0)) first, .add (toLex (2, 0)) second, .read "worker-1" .done, .stop "worker-1",
    .read "worker-1" .done, .stop "worker-1", .elapse 5000]

theorem update_nil (consumer : String) (messages : List StreamMessage) :
    update (update (fun _ => []) consumer messages) consumer [] = fun _ => [] := by
  funext c
  by_cases hc : c = consumer <;> simp [hc]

theorem read_stop {v : Settings} {s : Group} (consumer : String) (hprocessing : s.processing = fun _ => [])
    (hrecovering : s.recovering = fun _ => []) :
    exec (step v) s [.read consumer .done, .stop consumer] = some (s.deliver v consumer) := by
  have hfree : s.Free consumer := by
    constructor
    · rw [hprocessing]
    · rw [hrecovering]
  have hidle : update (fun _ => ([] : List StreamMessage)) consumer [] = fun _ => [] := by simp
  simp only [exec, step, if_pos hfree, Option.bind_some, hprocessing, deliver, update_nil, hrecovering, hidle]

theorem opening_run (first second : List (String × Option Value)) :
    exec (step demoSettings) initial (opening first second) = some (resting (toLex (2, 0))
      [⟨(toLex (1, 0), some first), "worker-1", 0, 1⟩, ⟨(toLex (2, 0), some second), "worker-1", 0, 1⟩]
      5000) := by
  have hfirst : initial.lastId < (toLex (1, 0) : StreamId) := by decide
  have hsecond : (toLex (1, 0) : StreamId) < toLex (2, 0) := by decide
  have hadded : exec (step demoSettings) initial [.add (toLex (1, 0)) first, .add (toLex (2, 0)) second] =
      some { initial with
        undelivered := [(toLex (1, 0), some first), (toLex (2, 0), some second)], lastId :=
          toLex (2, 0) } := by
    simp only [exec, step, Option.bind_some, if_pos hfirst]
    rw [if_pos hsecond]
    rfl
  have hsplit : opening first second = [.add (toLex (1, 0)) first, .add (toLex (2, 0)) second] ++
      ([.read "worker-1" .done, .stop "worker-1"] ++
        ([.read "worker-1" .done, .stop "worker-1"] ++ [.elapse 5000])) := rfl
  rw [hsplit, exec_append, hadded, Option.bind_some, exec_append, read_stop "worker-1" rfl rfl,
    Option.bind_some, exec_append, read_stop "worker-1" rfl rfl]
  rfl

variable {lastId : StreamId} {now : ℕ}

theorem claim_two {v : Settings} {p q : PendingEntry} (consumer : String) (hcount : 2 ≤ v.recoveryCount)
    (hp : p.deliveredAt + v.pendingMinIdle ≤ now) (hq : q.deliveredAt + v.pendingMinIdle ≤ now) :
    step v (resting lastId [p, q] now) (.claim consumer .done idle counts) =
      some { resting lastId [p.claim now consumer, q.claim now consumer] now with
        recovering := update (fun _ => []) consumer
          (received (claimPending v.streamName [p.entry, q.entry] idle counts)) } := by
  have hfree : (resting lastId [p, q] now).Free consumer := ⟨rfl, rfl⟩
  obtain ⟨n, hn⟩ : ∃ n, v.recoveryCount = n + 2 := ⟨v.recoveryCount - 2, by omega⟩
  have hclaim : (resting lastId [p, q] now).autoclaimed v consumer =
      ([p.claim now consumer, q.claim now consumer], [p.entry, q.entry]) := by
    obtain ⟨m, hm⟩ : ∃ m, 10 * v.recoveryCount = m + 2 := ⟨10 * v.recoveryCount - 2, by omega⟩
    unfold autoclaimed
    rw [hm, hn]
    simp [resting, autoclaim, Nat.not_lt.mpr hp, Nat.not_lt.mpr hq]
  simp only [step, if_pos hfree, batch, hclaim]
  rfl

theorem next_two {v : Settings} {pending : List PendingEntry} (consumer : String)
    (first second : StreamMessage) :
    exec (step v) { resting lastId pending now with
        recovering := update (fun _ => []) consumer [first, second] } [.next consumer, .next consumer] =
      some { resting lastId pending now with recovered := [first, second] } := by
  simp [exec, step, takeNext, resting]

/-- The entry of the task, as the first worker left it. -/
def leftEntry (id : StreamId) : PendingEntry := ⟨demoEntry id, "worker-1", 0, 1⟩

def demoMessage (id : StreamId) : StreamMessage :=
  ⟨idText id, demoTask, none, [("stream", demoSettings.streamName), ("pending_idle_ms_at_claim", "0")]⟩

/-- Both messages of a worker that has stopped are recovered by another. -/
theorem batches_complete_iff_twoTasks :
    ∃ s, exec (step demoSettings)
    (resting (toLex (2, 0)) [leftEntry (toLex (1, 0)), leftEntry (toLex (2, 0))] 5000)
      [.claim "worker-2" .done [] [], .next "worker-2", .next "worker-2"] = some s ∧
      s.Handed (toLex (2, 0)) := by
  have hbatch : received (claimPending demoSettings.streamName
      [demoEntry (toLex (1, 0)), demoEntry (toLex (2, 0))] [] []) =
        [demoMessage (toLex (1, 0)), demoMessage (toLex (2, 0))] := by
    decide +kernel
  have hclaim : step demoSettings
    (resting (toLex (2, 0)) [leftEntry (toLex (1, 0)), leftEntry (toLex (2, 0))] 5000)
      (.claim "worker-2" .done [] []) = some { resting (toLex (2, 0))
        [(leftEntry (toLex (1, 0))).claim 5000 "worker-2", (leftEntry (toLex (2, 0))).claim 5000 "worker-2"]
        5000 with
          recovering := update (fun _ => []) "worker-2"
            [demoMessage (toLex (1, 0)), demoMessage (toLex (2, 0))] } := by
    rw [← hbatch]
    exact claim_two "worker-2" (by decide) (by decide) (by decide)
  have hrun := exec_cons_eq_some.mpr ⟨_, hclaim, next_two "worker-2" _ _⟩
  refine ⟨_, hrun, ?_⟩
  have hids : ∀ a ∈ [GroupAction.claim "worker-2" .done [] [], .next "worker-2", .next "worker-2"],
      Calm (toLex (2, 0)) a := by
    intro a ha
    simp only [List.mem_cons, List.not_mem_nil, or_false] at ha
    rcases ha with rfl | rfl | rfl
    · rfl
    · trivial
    · trivial
  have hungiven : ¬ (resting (toLex (2, 0)) [leftEntry (toLex (1, 0)), leftEntry (toLex (2, 0))] 5000).Given
      (toLex (2, 0)) := by
    rintro (⟨_, message, hmessage, -⟩ | ⟨message, hmessage, -⟩)
    · cases hmessage
    · cases hmessage
  have hpending : (resting (toLex (2, 0)) [leftEntry (toLex (1, 0)), leftEntry (toLex (2, 0))] 5000).pending =
      [leftEntry (toLex (1, 0))] ++ leftEntry (toLex (2, 0)) :: [] := rfl
  refine (batches_complete_iff (opening_run _ _) hrun hpending hungiven
    ⟨hids, by decide, by decide, by decide, by decide, fun _ => rfl⟩).2.2.mpr ⟨fun _ => ?_, ?_⟩
  · show Readable demoSettings.streamName [demoEntry (toLex (1, 0)), demoEntry (toLex (2, 0))]
    decide +kernel
  · exact fun _ _ => ⟨trivial, fun _ _ => ⟨trivial, fun _ _ => trivial⟩⟩

/-- The malformed entry stands before the other, both idle. -/
def blocked (now deliveries : ℕ) : Group :=
  resting (toLex (2, 0)) [⟨malformedEntry (toLex (1, 0)), "worker-1", now, deliveries⟩,
    ⟨demoEntry (toLex (2, 0)), "worker-1", now, deliveries⟩] (now + 5000)

/-- A round of the worker, and the time until both are idle again. -/
def blockedRound : List GroupAction := [.claim "worker-1" .done [] [], .elapse 5000]

theorem blocked_round (now deliveries : ℕ) :
    exec (step demoSettings) (blocked now deliveries) blockedRound =
      some (blocked (now + 5000) (deliveries + 1)) := by
  have hbatch : received (claimPending demoSettings.streamName
      [malformedEntry (toLex (1, 0)), demoEntry (toLex (2, 0))] [] []) = [] := by decide +kernel
  have hnone : update (fun _ => ([] : List StreamMessage)) "worker-1" [] = fun _ => [] := by simp
  have hclaim : step demoSettings (blocked now deliveries) (.claim "worker-1" .done [] []) = _ :=
    claim_two "worker-1" (by decide) le_rfl le_rfl
  have helapse : ∀ s : Group,
    exec (step demoSettings) s [.elapse 5000] = some { s with now := s.now + 5000 } :=
    fun _ => rfl
  rw [blockedRound, exec_cons, hclaim, Option.bind_some, helapse]
  simp only [malformedEntry, demoEntry] at hbatch
  simp only [resting, malformedEntry, demoEntry, hbatch, hnone]
  rfl

/-- **One malformed entry keeps a message from ever being recovered**: the batch comes back empty, round after
round. -/
theorem malformed_entry_blocks :
    (taskOf (demoEntry (toLex (2, 0))).2 = .ok demoTask ∧
      received (readGroup [(demoSettings.streamName,
        [malformedEntry (toLex (1, 0)), demoEntry (toLex (2, 0))])]) = []) ∧
    ∀ rounds, ∃ s, exec (step demoSettings) initial
      (opening [("data", none)] [("data", some demoTask.toJson)] ++
        (List.replicate rounds blockedRound).flatten) = some s ∧
      (∃ p ∈ s.pending, p.entry = demoEntry (toLex (2, 0)) ∧ p.deliveredAt + demoSettings.pendingMinIdle ≤
        s.now) ∧
      ¬ s.Handed (toLex (2, 0)) := by
  refine ⟨⟨taskOf_demoEntry _, by decide +kernel⟩, fun rounds => ?_⟩
  have hrounds : ∀ rounds now deliveries, exec (step demoSettings) (blocked now deliveries)
      (List.replicate rounds blockedRound).flatten =
        some (blocked (now + 5000 * rounds) (deliveries + rounds)) := by
    intro rounds
    induction rounds with
    | zero =>
      intro now deliveries
      rfl
    | succ rounds ih =>
      intro now deliveries
      rw [List.replicate_succ, List.flatten_cons, exec_append, blocked_round, Option.bind_some, ih]
      congr 2 <;> omega
  refine ⟨blocked (5000 * rounds) (1 + rounds), ?_, ?_, ?_⟩
  · rw [exec_append, opening_run]
    have h := hrounds rounds 0 1
    rw [Nat.zero_add] at h
    exact h
  · exact ⟨_, List.mem_cons_of_mem _ List.mem_cons_self, rfl, le_rfl⟩
  · rintro ⟨message, hmessage, -⟩
    cases hmessage

end CountyFlow.Streams
