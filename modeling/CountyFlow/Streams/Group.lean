import CountyFlow.Streams.Queue

/-!
# The consumer group and its workers

The stream with its consumer group as Redis keeps them, and the loops of `DispatchWorker.run_once` and
`recover_once` on it: a reading or a claim gives a worker a batch, and the loop takes its messages one
after the other.  Anybody may add an entry, whatever its data.
-/

namespace CountyFlow.Streams

open CountyFlow.Core CountyFlow.Lib Function
open CountyFlow.Events (StreamId idText)
open CountyFlow.Security (RedisReply)

/-! ### The group -/

structure Settings where
  streamName : String
  readCount : ℕ
  pendingMinIdle : ℕ
  recoveryCount : ℕ

/-- A delivered entry that is not acknowledged, and when it was delivered last. -/
structure PendingEntry where
  entry : Entry
  consumer : String
  deliveredAt : ℕ
  deliveries : ℕ

/-- The entry is delivered once more. -/
def PendingEntry.claim (p : PendingEntry) (now : ℕ) (consumer : String) : PendingEntry :=
  { p with consumer, deliveredAt := now, deliveries := p.deliveries + 1 }

/-- The loop of `XAUTOCLAIM` from `0-0` on: it looks at so many entries, and claims so many of the idle
ones. -/
def autoclaim (now minIdle : ℕ) (consumer : String) :
    ℕ → ℕ → List PendingEntry → List PendingEntry × List Entry
  | _, _, [] => ([], [])
  | 0, _, p :: rest => (p :: rest, [])
  | _ + 1, 0, p :: rest => (p :: rest, [])
  | attempts + 1, count + 1, p :: rest =>
    if now < p.deliveredAt + minIdle then
      let (rest', claimed) := autoclaim now minIdle consumer attempts (count + 1) rest
      (p :: rest', claimed)
    else
      let (rest', claimed) := autoclaim now minIdle consumer attempts count rest
      (p.claim now consumer :: rest', p.entry :: claimed)

/-- The group, the clock, and what every worker has been given and has not come to; `recovered` has what
`_recover_message` was called with. -/
structure Group where
  undelivered : List Entry
  lastId : StreamId
  pending : List PendingEntry
  now : ℕ
  processing : String → List StreamMessage
  recovering : String → List StreamMessage
  recovered : List StreamMessage

/-- Who moves, and what Redis answers; `idle` and `counts` are the answers to `XPENDING`. -/
inductive GroupAction where
  | add (id : StreamId) (fields : List (String × Option Value))
  | elapse (ms : ℕ)
  | read (consumer : String) (reply : RedisReply)
  | claim (consumer : String) (reply : RedisReply) (idle counts : List (String × ℕ))
  | next (consumer : String)
  | ack (id : StreamId)
  | stop (consumer : String)

namespace Group

variable {v : Settings}

def initial : Group := ⟨[], toLex (0, 0), [], 0, fun _ => [], fun _ => [], []⟩

/-- `XREADGROUP`: the first entries nobody has been given. -/
def deliver (v : Settings) (s : Group) (consumer : String) : Group :=
  { s with
    undelivered := s.undelivered.drop v.readCount
    pending := s.pending ++ (s.undelivered.take v.readCount).map fun entry => ⟨entry, consumer, s.now, 1⟩ }

/-- What `XREADGROUP` returns; nothing for the stream without entries. -/
def reading (v : Settings) (s : Group) : List (String × List Entry) :=
  if s.undelivered.take v.readCount = [] then [] else [(v.streamName, s.undelivered.take v.readCount)]

/-- `XAUTOCLAIM`, with ten looks for each entry it may claim. -/
def autoclaimed (v : Settings) (s : Group) (consumer : String) : List PendingEntry × List Entry :=
  autoclaim s.now v.pendingMinIdle consumer (10 * v.recoveryCount) v.recoveryCount s.pending

/-- The entries that `XAUTOCLAIM` returns. -/
def batch (v : Settings) (s : Group) (consumer : String) : List Entry := (s.autoclaimed v consumer).2

/-- The worker has come to the end of its loop. -/
def Free (s : Group) (consumer : String) : Prop := s.processing consumer = [] ∧ s.recovering consumer = []

instance (s : Group) (consumer : String) : Decidable (s.Free consumer) :=
  inferInstanceAs (Decidable (_ ∧ _))

def takeNext (s : Group) (consumer : String) : Option Group :=
  match s.processing consumer, s.recovering consumer with
  | _ :: rest, _ => some { s with processing := update s.processing consumer rest }
  | [], message :: rest => some { s with
      recovering := update s.recovering consumer rest
      recovered := s.recovered ++ [message] }
  | [], [] => none

/-- The state after an action, `none` when it is not enabled. -/
def step (v : Settings) (s : Group) : GroupAction → Option Group
  | .add id fields =>
    if s.lastId < id then some { s with undelivered := s.undelivered ++ [(id, some fields)], lastId := id }
    else none
  | .elapse ms => some { s with now := s.now + ms }
  | .read consumer reply =>
    if s.Free consumer then
      match reply with
      | .failed => some s
      | .lost => some (s.deliver v consumer)
      | .done => some { s.deliver v consumer with
          processing := update s.processing consumer (received (readGroup (s.reading v))) }
    else none
  | .claim consumer reply idle counts =>
    if s.Free consumer then
      match reply with
      | .failed => some s
      | .lost => some { s with pending := (s.autoclaimed v consumer).1 }
      | .done => some { s with
          pending := (s.autoclaimed v consumer).1
          recovering := update s.recovering consumer
            (received (claimPending v.streamName (s.batch v consumer) idle counts)) }
    else none
  | .next consumer => s.takeNext consumer
  | .ack id => some { s with pending := s.pending.filter fun p => p.entry.1 ≠ id }
  | .stop consumer => some { s with
      processing := update s.processing consumer []
      recovering := update s.recovering consumer [] }

end Group

/-! ### A claim -/

variable {attempts count : ℕ} {pending : List PendingEntry}

section Autoclaim

variable {now minIdle : ℕ} {consumer : String}

theorem autoclaim_entries (attempts count : ℕ) (pending : List PendingEntry) :
    (autoclaim now minIdle consumer attempts count pending).1.map PendingEntry.entry =
      pending.map PendingEntry.entry := by
  induction pending generalizing attempts count with
  | nil => cases attempts <;> rfl
  | cons p rest ih =>
    cases attempts with
    | zero => rfl
    | succ attempts =>
      cases count with
      | zero => rfl
      | succ count =>
        simp only [autoclaim]
        split
        · simp [ih]
        · simp [ih, PendingEntry.claim]

theorem autoclaim_delivered {q : PendingEntry}
    (hq : q ∈ (autoclaim now minIdle consumer attempts count pending).1) :
    q ∈ pending ∨ q.deliveredAt = now := by
  induction pending generalizing attempts count with
  | nil => cases attempts <;> cases hq
  | cons p rest ih =>
    cases attempts with
    | zero => exact .inl hq
    | succ attempts =>
      cases count with
      | zero => exact .inl hq
      | succ count =>
        simp only [autoclaim] at hq
        split at hq
        · rcases List.mem_cons.mp hq with rfl | hq
          · exact .inl List.mem_cons_self
          · exact (ih hq).imp_left (List.mem_cons_of_mem p)
        · rcases List.mem_cons.mp hq with rfl | hq
          · exact .inr rfl
          · exact (ih hq).imp_left (List.mem_cons_of_mem p)

theorem autoclaim_idle {entry : Entry}
    (h : entry ∈ (autoclaim now minIdle consumer attempts count pending).2) :
    ∃ p ∈ pending, p.entry = entry ∧ p.deliveredAt + minIdle ≤ now := by
  induction pending generalizing attempts count with
  | nil => cases attempts <;> cases h
  | cons p rest ih =>
    cases attempts with
    | zero => cases h
    | succ attempts =>
      cases count with
      | zero => cases h
      | succ count =>
        simp only [autoclaim] at h
        split at h
        · obtain ⟨q, hq, hentry⟩ := ih h
          exact ⟨q, List.mem_cons_of_mem p hq, hentry⟩
        · rename_i hidle
          rcases List.mem_cons.mp h with rfl | h
          · exact ⟨p, List.mem_cons_self, rfl, by omega⟩
          · obtain ⟨q, hq, hentry⟩ := ih h
            exact ⟨q, List.mem_cons_of_mem p hq, hentry⟩

/-- The entries delivered so long ago that a claim up to the horizon may take them. -/
def due (horizon minIdle : ℕ) (p : PendingEntry) : Bool := p.deliveredAt + minIdle ≤ horizon

theorem autoclaim_cases (consumer : String) {horizon : ℕ} (count : ℕ) {ahead : List PendingEntry}
    {p : PendingEntry} (behind : List PendingEntry) (hnow : now ≤ horizon)
    (hhorizon : horizon < now + minIdle) (hidle : p.deliveredAt + minIdle ≤ now)
    (hattempts : ahead.length < attempts) :
    (p.entry ∈ (autoclaim now minIdle consumer attempts count (ahead ++ p :: behind)).2 ∧
      ∃ ahead' behind', (autoclaim now minIdle consumer attempts count (ahead ++ p :: behind)).1 =
        ahead' ++ p.claim now consumer :: behind' ∧ ahead'.length = ahead.length) ∨
    ∃ ahead', autoclaim now minIdle consumer attempts count (ahead ++ p :: behind) =
        (ahead' ++ p :: behind, (autoclaim now minIdle consumer attempts count ahead).2) ∧
      ahead'.length = ahead.length ∧
      ahead'.countP (due horizon minIdle) + count ≤ ahead.countP (due horizon minIdle) := by
  induction ahead generalizing attempts count with
  | nil =>
    obtain ⟨attempts, rfl⟩ := Nat.exists_eq_succ_of_ne_zero (by simp at hattempts; omega : attempts ≠ 0)
    cases count with
    | zero => exact .inr ⟨[], rfl, rfl, le_rfl⟩
    | succ count =>
      have hnot : ¬ now < p.deliveredAt + minIdle := by omega
      refine .inl ⟨?_, [], (autoclaim now minIdle consumer attempts count behind).1, ?_, rfl⟩
      · simp [autoclaim, hnot]
      · simp [autoclaim, hnot]
  | cons q ahead ih =>
    obtain ⟨attempts, rfl⟩ := Nat.exists_eq_succ_of_ne_zero (by simp at hattempts; omega : attempts ≠ 0)
    have hrest : ahead.length < attempts := by simpa using hattempts
    cases count with
    | zero => exact .inr ⟨q :: ahead, rfl, rfl, le_rfl⟩
    | succ count =>
      by_cases hbusy : now < q.deliveredAt + minIdle
      · rcases ih (count + 1) hrest with ⟨hmem, ahead', behind', heq, hlength⟩ |
          ⟨ahead', heq, hlength, hcount⟩
        · refine .inl ⟨?_, q :: ahead', behind', ?_, by simp [hlength]⟩
          · simpa [autoclaim, hbusy] using hmem
          · simp [autoclaim, hbusy, heq]
        · refine .inr ⟨q :: ahead', ?_, by simp [hlength], ?_⟩
          · simp [autoclaim, hbusy, heq]
          · rw [List.countP_cons, List.countP_cons]
            omega
      · rcases ih count hrest with ⟨hmem, ahead', behind', heq, hlength⟩ |
          ⟨ahead', heq, hlength, hcount⟩
        · refine .inl ⟨?_, q.claim now consumer :: ahead', behind', ?_, by simp [hlength]⟩
          · simp [autoclaim, hbusy, hmem]
          · simp [autoclaim, hbusy, heq]
        · refine .inr ⟨q.claim now consumer :: ahead', ?_, by simp [hlength], ?_⟩
          · simp [autoclaim, hbusy, heq]
          · have hwas : due horizon minIdle q = true := by
              simp only [due, decide_eq_true_eq]
              omega
            have his : due horizon minIdle (q.claim now consumer) = false := by
              unfold due PendingEntry.claim
              exact decide_eq_false (by simp; omega)
            rw [List.countP_cons_of_pos hwas, List.countP_cons_of_neg (by rw [his]; decide)]
            omega

end Autoclaim

/-! ### The order of the entries -/

variable {s s' : Group}

namespace Group

variable {v : Settings}

/-- The ids of the entries that are not acknowledged, the delivered ones first. -/
def ids (s : Group) : List StreamId := s.pending.map (fun p => p.entry.1) ++ s.undelivered.map Prod.fst

/-- The entries stand in the order of their ids. -/
structure Ordered (s : Group) : Prop where
  sorted : s.ids.Pairwise (· < ·)
  last : ∀ id ∈ s.ids, id ≤ s.lastId

theorem ordered_initial : Ordered initial := ⟨List.Pairwise.nil, fun _ h => absurd h List.not_mem_nil⟩

theorem Ordered.of_sublist (h : s.Ordered) (hids : s'.ids.Sublist s.ids)
    (hlast : s'.lastId = s.lastId) : s'.Ordered :=
  ⟨h.sorted.sublist hids, fun id hid => hlast ▸ h.last id (hids.subset hid)⟩

theorem Ordered.of_ids (h : s.Ordered) (hids : s'.ids = s.ids) (hlast : s'.lastId = s.lastId) : s'.Ordered :=
  h.of_sublist (by rw [hids]) hlast

theorem ids_deliver (s : Group) (consumer : String) : (s.deliver v consumer).ids = s.ids := by
  unfold ids deliver
  simp only [List.map_append, List.map_map, List.append_assoc]
  congr 1
  rw [show (fun p : PendingEntry => p.entry.1) ∘ (fun entry => ⟨entry, consumer, s.now, 1⟩) =
    (Prod.fst : Entry → StreamId) from rfl, ← List.map_append, List.take_append_drop]

theorem ids_autoclaimed (s : Group) (consumer : String) :
    (s.autoclaimed v consumer).1.map (fun p => p.entry.1) = s.pending.map fun p => p.entry.1 := by
  have h : (s.autoclaimed v consumer).1.map PendingEntry.entry = s.pending.map PendingEntry.entry :=
    autoclaim_entries _ _ _
  have hfst := congrArg (List.map Prod.fst) h
  simpa [List.map_map, Function.comp_def] using hfst

theorem ids_claimed (s : Group) (consumer : String) (recovering : String → List StreamMessage) :
    ids { s with pending := (s.autoclaimed v consumer).1, recovering } = s.ids := by
  unfold ids
  rw [ids_autoclaimed]

/-- Every action of the group keeps the entries in the order of their ids. -/
theorem step_ordered {a : GroupAction} (h : s.Ordered) (hstep : step v s a = some s') : s'.Ordered := by
  cases a with
  | add id fields =>
    simp only [step] at hstep
    split at hstep
    · rename_i hid
      cases hstep
      have hids : ids { s with undelivered := s.undelivered ++ [(id, some fields)], lastId := id } =
          s.ids ++ [id] := by
        simp [ids]
      refine ⟨?_, ?_⟩
      · rw [hids, List.pairwise_append]
        refine ⟨h.sorted, List.pairwise_singleton _ _, fun a ha b hb => ?_⟩
        rw [List.mem_singleton.mp hb]
        exact lt_of_le_of_lt (h.last a ha) hid
      · rw [hids]
        intro id' hid'
        rcases List.mem_append.mp hid' with hid' | hid'
        · exact ((h.last id' hid').trans_lt hid).le
        · exact (List.mem_singleton.mp hid').le
    · cases hstep
  | elapse ms =>
    cases hstep
    exact ⟨h.sorted, h.last⟩
  | read consumer reply =>
    simp only [step] at hstep
    split at hstep
    · cases reply with
      | failed =>
        cases hstep
        exact h
      | lost =>
        cases hstep
        exact h.of_ids (ids_deliver s consumer) rfl
      | done =>
        cases hstep
        exact h.of_ids (ids_deliver s consumer) rfl
    · cases hstep
  | claim consumer reply idle counts =>
    simp only [step] at hstep
    split at hstep
    · cases reply with
      | failed =>
        cases hstep
        exact h
      | lost =>
        cases hstep
        exact h.of_ids (ids_claimed s consumer _) rfl
      | done =>
        cases hstep
        exact h.of_ids (ids_claimed s consumer _) rfl
    · cases hstep
  | next consumer =>
    simp only [step, takeNext] at hstep
    split at hstep
    · cases hstep
      exact ⟨h.sorted, h.last⟩
    · cases hstep
      exact ⟨h.sorted, h.last⟩
    · cases hstep
  | ack id =>
    cases hstep
    refine h.of_sublist ?_ rfl
    exact (List.filter_sublist.map _).append_right _
  | stop consumer =>
    cases hstep
    exact ⟨h.sorted, h.last⟩

theorem ordered_of_run {as : List GroupAction} (hrun : exec (step v) initial as = some s) : s.Ordered :=
  exec_preserves (fun _ _ _ => step_ordered) hrun ordered_initial

end Group

end CountyFlow.Streams
