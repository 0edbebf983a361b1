import CountyFlow.Submission.Submit

/-!
# Submissions of one request

Any number of calls with one request, while the queue and the database work.  The first call that
commits creates the task, and a call that looks the key up afterwards answers with it.  A call that has
looked the key up before and draws an id of its own does not: `begin` finds the key under another id
and raises an `IdempotencyConflictError` that nobody catches.
-/

namespace CountyFlow.Submission

open CountyFlow.Lib CountyFlow.Runtime CountyFlow.Worker Function

variable {l l' : Ledger} {a : BeginArgs} {key : String}

namespace Ledger

def threadOf (id : String) : String := "cf:dispatch:" ++ id

/-- Nothing has the id or the ids that derive from it. -/
structure Fresh (l : Ledger) (id : String) : Prop where
  nonempty : id ≠ ""
  task : l.tasks.find id = none
  thread : l.threads.find id = none
  threadId : threadOf id ∉ l.threads.rows.map RuntimeThread.threadId
  event : l.events.find (threadOf id, "thread:created") = none

/-! ### Insertions that go through -/

theorem insertTask_isSome (row : TaskRow) (hid : l.tasks.find row.taskId = none)
    (hkey : l.byKey row.idempotencyKey = none) : ∃ l', l.insertTask row = some l' := by
  have hfree : row.idempotencyKey ∉ l.tasks.rows.map TaskRow.idempotencyKey := by
    intro hmem
    obtain ⟨old, hold, heq⟩ := List.mem_map.mp hmem
    exact byKey_eq_none.mp hkey old hold heq
  obtain ⟨tasks, hadd⟩ := Table.add_of_find_none hid
  unfold insertTask
  split
  · rename_i hnone
    rw [hadd] at hnone
    cases hnone
  · rw [dif_neg hfree]
    exact ⟨_, rfl⟩

theorem insertThread_isSome (row : RuntimeThread) (hid : l.threads.find row.taskId = none)
    (hthread : row.threadId ∉ l.threads.rows.map RuntimeThread.threadId) :
    ∃ l', l.insertThread row = some l' := by
  obtain ⟨threads, hadd⟩ := Table.add_of_find_none hid
  unfold insertThread
  split
  · rename_i hnone
    rw [hadd] at hnone
    cases hnone
  · rw [dif_neg hthread]
    exact ⟨_, rfl⟩

theorem commit_isSome (h : l.Fresh a.taskId)
    (hkey : l.byKey a.idempotencyKey = none) : ∃ l', l.commit a (threadOf a.taskId) = some l' := by
  obtain ⟨l₁, h₁⟩ := insertTask_isSome a.task h.task hkey
  obtain ⟨-, -, -, hthreads₁, hevents₁⟩ := insertTask_ok h₁
  obtain ⟨l₂, h₂⟩ : ∃ l₂, l₁.insertThread (a.thread (threadOf a.taskId)) = some l₂ := by
    refine insertThread_isSome _ ?_ ?_
    · rw [hthreads₁]
      exact h.thread
    · rw [hthreads₁]
      exact h.threadId
  obtain ⟨-, -, -, hevents₂⟩ := insertThread_ok h₂
  obtain ⟨events, h₃⟩ : ∃ events, l₂.events.add (a.created (threadOf a.taskId)) = some events := by
    refine Table.add_of_find_none ?_
    rw [hevents₂, hevents₁]
    exact h.event
  refine ⟨{ l₂ with events := events }, ?_⟩
  unfold commit insertEvent
  rw [h₁, Option.bind_some, h₂, Option.bind_some, h₃]
  rfl

/-! ### What the workers leave alone -/

/-- The rows have the same ids and keys, and the events are the same. -/
structure Alike (l l' : Ledger) : Prop where
  pairs : l'.pairs = l.pairs
  threads : ∀ id, l'.threads.find id = none ↔ l.threads.find id = none
  threadIds : l'.threads.rows.map RuntimeThread.threadId = l.threads.rows.map RuntimeThread.threadId
  events : l'.events = l.events

theorem alike_update (l : Ledger) (taskId : String) (status : TaskStatus)
    (started completed : Option ℕ) : Alike l (l.update taskId status started completed) :=
  ⟨update_pairs .., fun _ => Iff.rfl, rfl, rfl⟩

theorem alike_steer {row : RuntimeThread} (h : l.steer row = some l') : Alike l l' := by
  have hpairs : l'.pairs = l.pairs := by
    unfold Ledger.pairs
    rw [steer_tasks h]
  unfold steer at h
  split at h
  · cases h
  · rename_i old hfind
    split at h
    · rename_i hid
      cases h
      refine ⟨hpairs, fun id => ?_, ?_, rfl⟩
      · show (l.threads.replace row).find id = none ↔ _
        rw [Table.find_replace_of hfind]
        split
        · rename_i hsame
          rw [hsame, hfind]
          simp
        · exact Iff.rfl
      · show (l.threads.rows.map _).map _ = _
        rw [List.map_map]
        refine List.map_congr_left fun r hr => ?_
        show (if r.taskId = row.taskId then row else r).threadId = r.threadId
        split
        · rename_i hsame
          have hold := Table.find_of_mem hr
          rw [hsame, hfind] at hold
          rw [hid, Option.some.inj hold]
        · rfl
    · cases h

theorem byKey_none_iff : l.byKey key = none ↔ ∀ pair ∈ l.pairs, pair.2 ≠ key := by
  rw [byKey_eq_none]
  constructor
  · intro h pair hpair
    obtain ⟨row, hrow, rfl⟩ := List.mem_map.mp hpair
    exact h row hrow
  · intro h row hrow
    exact h (row.taskId, row.idempotencyKey) (List.mem_map_of_mem hrow)

theorem Alike.byKey_none (h : Alike l l') (hnone : l.byKey key = none) : l'.byKey key = none := by
  rw [byKey_none_iff] at hnone ⊢
  rw [h.pairs]
  exact hnone

theorem Alike.fresh (h : Alike l l') {id : String} (hf : l.Fresh id) : l'.Fresh id := by
  refine ⟨hf.nonempty, find_none_of_pairs h.pairs hf.task, (h.threads id).mpr hf.thread, ?_, ?_⟩
  · rw [h.threadIds]
    exact hf.threadId
  · rw [h.events]
    exact hf.event

theorem byKey_update {taskId : String} {status : TaskStatus} {started completed : Option ℕ} {row : TaskRow}
    (h : l.byKey key = some row) :
    (l.update taskId status started completed).byKey key = some (if row.taskId = taskId then
      { row with status := status, startedAt := started, completedAt := completed } else row) := by
  obtain ⟨hrow, hkey⟩ := byKey_eq_some.mp h
  refine byKey_eq_some.mpr ⟨mem_update.mpr ⟨row, hrow, rfl⟩, ?_⟩
  split <;> exact hkey

end Ledger

/-! ### The call that creates the task -/

namespace BeginState

/-- How many statements are left to a call that creates its task. -/
def remaining : BeginState → ℕ
  | .byTask _ _ => 5
  | .byKey _ _ _ _ => 4
  | .adding _ _ => 3
  | .threading _ _ => 2
  | .committing _ _ => 1
  | _ => 0

/-- The arguments are those of the request under a fresh id, and the key is free. -/
structure Open (l : Ledger) (r : SubmitRequest) (a : BeginArgs) : Prop where
  args : a = r.args a.taskId
  fresh : l.Fresh a.taskId
  key : l.byKey a.idempotencyKey = none

/-- The call is going to create its task. -/
def Ready (l : Ledger) (r : SubmitRequest) : BeginState → Prop
  | .byTask a again => again = false ∧ Open l r a
  | .byKey a again seen found =>
    again = false ∧ found = none ∧ seen.byKey a.idempotencyKey = none ∧ Open l r a
  | .adding a threadId | .threading a threadId | .committing a threadId =>
    threadId = Ledger.threadOf a.taskId ∧ Open l r a
  | _ => False

variable {r : SubmitRequest}

theorem Open.alike (h : Open l r a) (hl : Ledger.Alike l l') : Open l' r a :=
  ⟨h.args, hl.fresh h.fresh, hl.byKey_none h.key⟩

theorem Ready.alike {call : BeginState} (h : call.Ready l r) (hl : Ledger.Alike l l') : call.Ready l' r := by
  cases call with
  | byTask a again => exact ⟨h.1, h.2.alike hl⟩
  | byKey a again seen found => exact ⟨h.1, h.2.1, h.2.2.1, h.2.2.2.alike hl⟩
  | adding a threadId => exact ⟨h.1, h.2.alike hl⟩
  | threading a threadId => exact ⟨h.1, h.2.alike hl⟩
  | committing a threadId => exact ⟨h.1, h.2.alike hl⟩
  | _ => exact absurd h id

/-- A ready call comes nearer to its end, or creates the task and returns it. -/
theorem step_ready {o : BeginOutcome} {call : BeginState} (ho : o.fate = .checked) (h : call.Ready l r) :
    (∃ call', call.step o l = some (call', l) ∧ call'.Ready l r ∧
      call'.remaining < call.remaining) ∨
    ∃ a l', call.step o l = some (.returned a a.new, l') ∧ Open l r a ∧
      Ledger.Gains l l' a (Ledger.threadOf a.taskId) ∧ 0 < call.remaining := by
  cases call with
  | byTask a again =>
    obtain ⟨rfl, hopen⟩ := h
    refine .inl ⟨.byKey a false l (l.tasks.find a.taskId), ?_, ⟨rfl, ?_, hopen.key, hopen⟩, ?_⟩
    · simp only [step]
      rw [if_neg (by simp [ho])]
    · exact hopen.fresh.task
    · show 4 < 5
      omega
  | byKey a again seen found =>
    obtain ⟨rfl, rfl, hseen, hopen⟩ := h
    have hkey : (if o.repeatable then seen else l).byKey a.idempotencyKey = none := by
      split
      · exact hseen
      · exact hopen.key
    refine .inl ⟨.adding a (Ledger.threadOf a.taskId), ?_, ⟨rfl, hopen⟩, ?_⟩
    · simp only [step]
      rw [if_neg (by simp [ho]), hkey]
      unfold afterQueries threadIdForPersistedTask
      rw [if_neg hopen.fresh.nonempty]
      rfl
    · show 3 < 4
      omega
  | adding a threadId =>
    obtain ⟨rfl, hopen⟩ := h
    obtain ⟨l₁, h₁⟩ := Ledger.insertTask_isSome a.task hopen.fresh.task hopen.key
    refine .inl ⟨.threading a (Ledger.threadOf a.taskId), ?_, ⟨rfl, hopen⟩, ?_⟩
    · simp only [step]
      rw [ho, h₁]
      rfl
    · show 2 < 3
      omega
  | threading a threadId =>
    obtain ⟨rfl, hopen⟩ := h
    obtain ⟨l₁, h₁⟩ := Ledger.insertThread_isSome
      (a.thread (Ledger.threadOf a.taskId)) hopen.fresh.thread hopen.fresh.threadId
    refine .inl ⟨.committing a (Ledger.threadOf a.taskId), ?_, ⟨rfl, hopen⟩, ?_⟩
    · simp only [step]
      rw [ho, h₁]
      rfl
    · show 1 < 2
      omega
  | committing a threadId =>
    obtain ⟨rfl, hopen⟩ := h
    obtain ⟨l', hcommit⟩ := Ledger.commit_isSome hopen.fresh hopen.key
    refine .inr ⟨a, l', ?_, hopen, Ledger.commit_gains hcommit, Nat.one_pos⟩
    simp only [step]
    rw [ho, hcommit]
  | _ => exact absurd h id

end BeginState

/-! ### The phases -/

namespace SubmitState

/-- How many steps are left to a call. -/
def remaining : SubmitState → ℕ
  | .checking _ => 11
  | .looking _ => 10
  | .beginning _ call => 4 + call.remaining
  | .publishing _ _ => 3
  | .announcing _ _ _ => 2
  | .answering _ _ _ => 1
  | _ => 0

/-- The call is in `begin`. -/
def isBeginning : SubmitState → Bool
  | .beginning _ _ => true
  | _ => false

def isMade : SubmitState → Bool
  | .idle => false
  | _ => true

/-- The call has not looked the key up. -/
def Waiting (r : SubmitRequest) (st : SubmitState) : Prop :=
  st = .idle ∨ st = .checking r ∨ st = .looking r

def Answered (r : SubmitRequest) (t : String) (duplicate : Bool) (st : SubmitState) : Prop :=
  ∃ answer, st = .accepted r answer ∧ answer.taskId = t ∧ answer.duplicate = duplicate

/-- The call has created the task and not appended its message. -/
def Created (r : SubmitRequest) (t : String) (st : SubmitState) : Prop :=
  (∃ a, st = .beginning r (.returned a a.new) ∧ a.taskId = t) ∨ st = .publishing r t

/-- The call has created the task and appended its message. -/
def Published (r : SubmitRequest) (t : String) (st : SubmitState) : Prop :=
  st = .announcing r t false ∨ st = .answering r t false ∨ st.Answered r t false

end SubmitState

def World.messages (w : World) (key : String) : List Message :=
  w.stream.filter fun m => m.idempotencyKey = key

variable {o : SubmitOutcome} {p c : ℕ} {st : SubmitState} {t : String} {w : World}

namespace Submissions

/-- Every call has the request, nothing fails, nobody crashes, and the ids drawn are fresh. -/
def Calm (r : SubmitRequest) (s : Submissions) : SubmitAction → Prop
  | .submit _ r' => r' = r
  | .advance p o => o.fails = false ∧ o.queue = .appended ∧ o.begin.fate = .checked ∧
      (s.calls p = .looking r → s.world.ledger.Fresh o.taskId)
  | .interrupt _ => False
  | .work _ _ _ _ _ | .steer _ => True

/-- A call that finds nothing under its key is the only one in `begin`. -/
def Lone (s : Submissions) : SubmitAction → Prop
  | .advance p _ => ∀ r, s.calls p = .looking r → s.world.ledger.byKey r.idempotencyKey = none →
      ∀ q, (s.calls q).isBeginning = false
  | _ => True

/-- Before the commit: nobody has a task, and one call at most is in `begin`. -/
structure Before (r : SubmitRequest) (s : Submissions) : Prop where
  key : s.world.ledger.byKey r.idempotencyKey = none
  messages : s.world.messages r.idempotencyKey = []
  calls : ∀ p, (s.calls p).Waiting r ∨
    ∃ call, s.calls p = .beginning r call ∧ call.Ready s.world.ledger r
  alone : ∀ p q, (s.calls p).isBeginning = true → (s.calls q).isBeginning = true → p = q

structure After (r : SubmitRequest) (c : ℕ) (t : String) (s : Submissions) : Prop where
  row : ∃ row, s.world.ledger.byKey r.idempotencyKey = some row ∧ row.taskId = t ∧
    r.conflicts row = false ∧ row.status ≠ .submissionFailed
  thread : s.world.ledger.threads.find t ≠ none
  creator : ((s.calls c).Created r t ∧ s.world.messages r.idempotencyKey = []) ∨
    ((s.calls c).Published r t ∧ ∃ m, s.world.messages r.idempotencyKey = [m] ∧ m.taskId = t)
  others : ∀ q, q ≠ c → (s.calls q).Waiting r ∨ (s.calls q).Answered r t true

/-- The assignee is active, and the calls are in one of the two phases. -/
structure Agreed (r : SubmitRequest) (s : Submissions) : Prop where
  active : r.assigneeEmployeeId = none ∨ s.world.active r.assigneeSubjectId = true
  phase : s.Before r ∨ ∃ c t, s.After r c t

/-! ### One call moves -/

theorem Before.call {r : SubmitRequest} {s : Submissions} (hs : s.Before r)
    (hst : st.Waiting r ∨ ∃ call, st = .beginning r call ∧ call.Ready s.world.ledger r)
    (halone : st.isBeginning = true → ∀ q, (s.calls q).isBeginning = true → q = p) :
    ({ s with calls := update s.calls p st } : Submissions).Before r := by
  have hcases : ∀ q, (q = p ∧ update s.calls p st q = st) ∨
      (q ≠ p ∧ update s.calls p st q = s.calls q) := by
    intro q
    by_cases hq : q = p
    · rw [hq]
      exact .inl ⟨rfl, update_self _ _ _⟩
    · exact .inr ⟨hq, update_of_ne hq _ _⟩
  refine ⟨hs.key, hs.messages, fun q => ?_, fun q q' hq hq' => ?_⟩
  · show (update s.calls p st q).Waiting r ∨
      ∃ call, update s.calls p st q = .beginning r call ∧ call.Ready s.world.ledger r
    rcases hcases q with ⟨-, heq⟩ | ⟨-, heq⟩
    · rw [heq]
      exact hst
    · rw [heq]
      exact hs.calls q
  · have hq₁ : (update s.calls p st q).isBeginning = true := hq
    have hq₂ : (update s.calls p st q').isBeginning = true := hq'
    rcases hcases q with ⟨hqp, heq⟩ | ⟨-, heq⟩ <;> rcases hcases q' with ⟨hqp', heq'⟩ | ⟨-, heq'⟩
    · exact hqp.trans hqp'.symm
    · rw [heq] at hq₁
      rw [heq'] at hq₂
      exact hqp.trans (halone hq₁ q' hq₂).symm
    · rw [heq] at hq₁
      rw [heq'] at hq₂
      exact (halone hq₂ q hq₁).trans hqp'.symm
    · rw [heq] at hq₁
      rw [heq'] at hq₂
      exact hs.alone q q' hq₁ hq₂

variable {r : SubmitRequest} {s : Submissions}

theorem After.create (hs : s.After r c t) (hledger : w.ledger = s.world.ledger)
    (hst : (st.Created r t ∧ w.messages r.idempotencyKey = []) ∨
      (st.Published r t ∧ ∃ m, w.messages r.idempotencyKey = [m] ∧ m.taskId = t)) :
    ({ world := w, calls := update s.calls c st } : Submissions).After r c t := by
  refine ⟨?_, ?_, ?_, fun q hq => ?_⟩
  · show ∃ row, w.ledger.byKey r.idempotencyKey = some row ∧ _
    rw [hledger]
    exact hs.row
  · show w.ledger.threads.find t ≠ none
    rw [hledger]
    exact hs.thread
  · show ((update s.calls c st c).Created r t ∧ _) ∨
      ((update s.calls c st c).Published r t ∧ _)
    rw [update_self]
    exact hst
  · show (update s.calls c st q).Waiting r ∨ (update s.calls c st q).Answered r t true
    rw [update_of_ne hq]
    exact hs.others q hq

theorem After.other (hs : s.After r c t) (hp : p ≠ c) (hst : st.Waiting r ∨ st.Answered r t true) :
    ({ s with calls := update s.calls p st } : Submissions).After r c t := by
  refine ⟨hs.row, hs.thread, ?_, fun q hq => ?_⟩
  · show ((update s.calls p st c).Created r t ∧ _) ∨
      ((update s.calls p st c).Published r t ∧ _)
    rw [update_of_ne hp.symm]
    exact hs.creator
  · show (update s.calls p st q).Waiting r ∨ (update s.calls p st q).Answered r t true
    by_cases hqp : q = p
    · rw [hqp, update_self]
      exact hst
    · rw [update_of_ne hqp]
      exact hs.others q hq

theorem Before.commit {call : BeginState} (hs : s.Before r) (hst : s.calls p = .beginning r call)
    (hopen : BeginState.Open s.world.ledger r a)
    (hgains : Ledger.Gains s.world.ledger l a (Ledger.threadOf a.taskId)) :
    ({ world := { s.world with ledger := l }
       calls := update s.calls p (.beginning r (.returned a a.new)) } : Submissions).After
      r p a.taskId := by
  have hrow : a.task ∈ l.tasks.rows := by
    rw [hgains.tasks]
    exact List.mem_append_right _ (List.mem_singleton.mpr rfl)
  have hkey : a.task.idempotencyKey = r.idempotencyKey := by
    show a.idempotencyKey = _
    rw [hopen.args]
    rfl
  refine ⟨⟨a.task, Ledger.byKey_eq_some.mpr ⟨hrow, hkey⟩, rfl, ?_, ?_⟩, ?_, ?_, fun q hq => ?_⟩
  · have horder : a.task.orderId = r.orderId := by
      show a.orderId = _
      rw [hopen.args]
      rfl
    have hassignee : a.task.assigneeSubjectId = some r.assigneeSubjectId := by
      show a.assigneeSubjectId = _
      rw [hopen.args]
      rfl
    unfold SubmitRequest.conflicts
    rw [horder, hassignee]
    simp
  · intro hstatus
    cases hstatus
  · have hthread : a.thread (Ledger.threadOf a.taskId) ∈ l.threads.rows := by
      rw [hgains.threads]
      exact List.mem_append_right _ (List.mem_singleton.mpr rfl)
    intro hnone
    have hfind := Table.find_of_mem hthread
    have hid : (a.thread (Ledger.threadOf a.taskId)).taskId = a.taskId := rfl
    have hnone' : l.threads.find a.taskId = none := hnone
    rw [hid, hnone'] at hfind
    cases hfind
  · refine .inl ⟨Or.inl ⟨a, ?_, rfl⟩, hs.messages⟩
    exact update_self _ _ _
  · show (update s.calls p _ q).Waiting r ∨ _
    rw [update_of_ne hq]
    rcases hs.calls q with hwaiting | ⟨call', hcall', -⟩
    · exact .inl hwaiting
    · refine absurd (hs.alone q p ?_ ?_) hq
      · rw [hcall']
        rfl
      · rw [hst]
        rfl

theorem step_checking (ho : o.fails = false)
    (hactive : r.assigneeEmployeeId = none ∨ w.active r.assigneeSubjectId = true) :
    SubmitState.step o w (.checking r) = some (.looking r, w) := by
  simp only [SubmitState.step]
  cases hid : r.assigneeEmployeeId with
  | none => rfl
  | some e =>
    rcases hactive with hnone | hactive
    · rw [hid] at hnone
      cases hnone
    · dsimp only
      rw [ho, hactive]
      rfl

theorem step_looking (ho : o.fails = false) :
    SubmitState.step o w (.looking r) =
      some (SubmitState.afterLook r o.taskId (w.ledger.byKey r.idempotencyKey), w) := by
  simp only [SubmitState.step]
  rw [ho]
  rfl

/-- What a step of a call achieves: it is enabled, comes closer to the answer and keeps the phases. -/
def Advances (r : SubmitRequest) (s : Submissions) (p : ℕ) (o : SubmitOutcome) : Prop :=
  ∃ st w, SubmitState.step o s.world (s.calls p) = some (st, w) ∧
    st.remaining < (s.calls p).remaining ∧ w.active = s.world.active ∧
    (({ world := w, calls := update s.calls p st } : Submissions).Before r ∨
      ∃ c t, ({ world := w, calls := update s.calls p st } : Submissions).After r c t)

theorem Before.advances (hs : s.Before r)
    (hactive : r.assigneeEmployeeId = none ∨ s.world.active r.assigneeSubjectId = true)
    (hcalm : s.Calm r (.advance p o)) (hlone : s.Lone (.advance p o))
    (hrunning : (s.calls p).running = true) : s.Advances r p o := by
  obtain ⟨hfails, -, hfate, hfresh⟩ := hcalm
  rcases hs.calls p with (hst | hst | hst) | ⟨call, hst, hready⟩
  · rw [hst] at hrunning
    cases hrunning
  · refine ⟨.looking r, s.world, ?_, ?_, rfl, Or.inl (hs.call (Or.inl (Or.inr (Or.inr rfl))) ?_)⟩
    · rw [hst]
      exact step_checking hfails hactive
    · rw [hst]
      show 10 < 11
      omega
    · intro hbeginning
      cases hbeginning
  · refine ⟨.beginning r (.byTask (r.args o.taskId) false), s.world, ?_, ?_, rfl,
      Or.inl (hs.call (Or.inr ⟨_, rfl, rfl, rfl, hfresh hst, hs.key⟩) fun _ q hq => ?_)⟩
    · rw [hst, step_looking hfails, hs.key]
      rfl
    · rw [hst]
      show 9 < 10
      omega
    · rw [hlone r hst hs.key q] at hq
      cases hq
  · rcases BeginState.step_ready hfate hready with
      ⟨call', hstep, hready', hless⟩ | ⟨a, l, hstep, hopen, hgains, hless⟩
    · refine ⟨.beginning r call', s.world, ?_, ?_, rfl,
        Or.inl (hs.call (Or.inr ⟨call', rfl, hready'⟩) fun _ q hq => ?_)⟩
      · rw [hst]
        simp only [SubmitState.step]
        rw [hstep]
      · rw [hst]
        show 4 + call'.remaining < 4 + call.remaining
        omega
      · refine hs.alone q p hq ?_
        rw [hst]
        rfl
    · refine ⟨.beginning r (.returned a a.new), { s.world with ledger := l }, ?_, ?_, rfl,
        Or.inr ⟨p, a.taskId, hs.commit hst hopen hgains⟩⟩
      · rw [hst]
        simp only [SubmitState.step]
        rw [hstep]
      · rw [hst]
        show 4 < 4 + call.remaining
        omega

theorem After.advances_creator (hs : s.After r c t) (hcalm : s.Calm r (.advance c o))
    (hrunning : (s.calls c).running = true) : s.Advances r c o := by
  obtain ⟨hfails, hqueue, -, -⟩ := hcalm
  rcases hs.creator with ⟨⟨a, hst, hid⟩ | hst, hnone⟩ | ⟨hst | hst | ⟨answer, hst, -⟩, hone⟩
  · refine ⟨.publishing r t, s.world, ?_, ?_, rfl,
      Or.inr ⟨c, t, hs.create rfl (Or.inl ⟨Or.inr rfl, hnone⟩)⟩⟩
    · rw [hst, ← hid]
      rfl
    · rw [hst]
      show 3 < 4
      omega
  · refine ⟨.announcing r t false, { s.world with stream := s.world.stream ++ [r.message t] }, ?_, ?_,
      rfl, Or.inr ⟨c, t, hs.create rfl (Or.inr ⟨Or.inl rfl, r.message t, ?_, rfl⟩)⟩⟩
    · rw [hst]
      simp only [SubmitState.step]
      rw [hqueue]
    · rw [hst]
      show 2 < 3
      omega
    · show (s.world.stream ++ [r.message t]).filter _ = _
      have hnone' : s.world.stream.filter (fun m => decide (m.idempotencyKey = r.idempotencyKey)) = [] :=
        hnone
      rw [List.filter_append, hnone']
      simp [SubmitRequest.message]
  · refine ⟨.answering r t false, s.world, ?_, ?_, rfl,
      Or.inr ⟨c, t, hs.create rfl (Or.inr ⟨Or.inr (Or.inl rfl), hone⟩)⟩⟩
    · rw [hst]
      rfl
    · rw [hst]
      show 1 < 2
      omega
  · obtain ⟨row, hkey, hid, -⟩ := hs.row
    have hfind : s.world.ledger.tasks.find t = some row := by
      rw [← hid]
      exact Table.find_of_mem (Ledger.byKey_eq_some.mp hkey).1
    refine ⟨.accepted r (row.accepted false), s.world, ?_, ?_, rfl,
      Or.inr ⟨c, t, hs.create rfl (Or.inr ⟨Or.inr (Or.inr ⟨_, rfl, hid, rfl⟩), hone⟩)⟩⟩
    · rw [hst]
      simp only [SubmitState.step]
      rw [hfails, hfind]
      rfl
    · rw [hst]
      show 0 < 1
      omega
  · rw [hst] at hrunning
    cases hrunning

theorem After.advances_other (hs : s.After r c t) (hp : p ≠ c)
    (hactive : r.assigneeEmployeeId = none ∨ s.world.active r.assigneeSubjectId = true)
    (hcalm : s.Calm r (.advance p o)) (hrunning : (s.calls p).running = true) : s.Advances r p o := by
  obtain ⟨hfails, -, -, -⟩ := hcalm
  rcases hs.others p hp with (hst | hst | hst) | ⟨answer, hst, -⟩
  · rw [hst] at hrunning
    cases hrunning
  · refine ⟨.looking r, s.world, ?_, ?_, rfl,
      Or.inr ⟨c, t, hs.other hp (Or.inl (Or.inr (Or.inr rfl)))⟩⟩
    · rw [hst]
      exact step_checking hfails hactive
    · rw [hst]
      show 10 < 11
      omega
  · obtain ⟨row, hkey, hid, hsame, hstatus⟩ := hs.row
    refine ⟨.accepted r (row.accepted true), s.world, ?_, ?_, rfl,
      Or.inr ⟨c, t, hs.other hp (Or.inr ⟨_, rfl, hid, rfl⟩)⟩⟩
    · rw [hst, step_looking hfails, hkey]
      unfold SubmitState.afterLook
      simp only [hsame, if_neg hstatus]
      rfl
    · rw [hst]
      show 0 < 10
      omega
  · rw [hst] at hrunning
    cases hrunning

theorem Agreed.advances (hs : s.Agreed r) (hcalm : s.Calm r (.advance p o)) (hlone : s.Lone (.advance p o))
    (hrunning : (s.calls p).running = true) : s.Advances r p o := by
  rcases hs.phase with hbefore | ⟨c, t, hafter⟩
  · exact hbefore.advances hs.active hcalm hlone hrunning
  · by_cases hp : p = c
    · subst hp
      exact hafter.advances_creator hcalm hrunning
    · exact hafter.advances_other hp hs.active hcalm hrunning

/-! ### The workers move -/

theorem Agreed.write (hs : s.Agreed r) (hl : Ledger.Alike s.world.ledger l)
    (hrow : ∀ row, s.world.ledger.byKey r.idempotencyKey = some row →
      row.status ≠ .submissionFailed → ∃ row', l.byKey r.idempotencyKey = some row' ∧
        row'.taskId = row.taskId ∧ r.conflicts row' = r.conflicts row ∧
        row'.status ≠ .submissionFailed) :
    ({ s with world := { s.world with ledger := l } } : Submissions).Agreed r := by
  refine ⟨hs.active, ?_⟩
  rcases hs.phase with hbefore | ⟨c, t, hafter⟩
  · refine .inl ⟨hl.byKey_none hbefore.key, hbefore.messages, fun p => ?_, hbefore.alone⟩
    rcases hbefore.calls p with hwaiting | ⟨call, hst, hready⟩
    · exact .inl hwaiting
    · exact .inr ⟨call, hst, hready.alike hl⟩
  · obtain ⟨row, hkey, hid, hsame, hstatus⟩ := hafter.row
    obtain ⟨row', hkey', hid', hsame', hstatus'⟩ := hrow row hkey hstatus
    refine .inr ⟨c, t, ⟨row', hkey', hid'.trans hid, hsame'.trans hsame, hstatus'⟩, ?_,
      hafter.creator, hafter.others⟩
    exact fun hnone => hafter.thread ((hl.threads t).mp hnone)

variable {a : SubmitAction}

/-- A step stays in the phase before the task is created, or goes to the one after it. -/
theorem step_agreed {s' : Submissions} (hs : s.Agreed r) (hcalm : s.Calm r a) (hlone : s.Lone a)
    (h : step s a = some s') : s'.Agreed r := by
  cases a with
  | submit p r' =>
    simp only [step] at h
    split at h
    · rename_i hidle
      cases h
      have hcalm' : r' = r := hcalm
      subst hcalm'
      refine ⟨hs.active, ?_⟩
      rcases hs.phase with hbefore | ⟨c, t, hafter⟩
      · refine .inl (hbefore.call (Or.inl (Or.inr (Or.inl rfl))) fun hbeginning => ?_)
        cases hbeginning
      · by_cases hp : p = c
        · subst hp
          rcases hafter.creator with ⟨⟨a, hst, -⟩ | hst, -⟩ | ⟨hst | hst | ⟨answer, hst, -⟩, -⟩
          all_goals
            rw [hst] at hidle
            cases hidle
        · exact .inr ⟨c, t, hafter.other hp (Or.inl (Or.inr (Or.inl rfl)))⟩
    · cases h
  | advance p o =>
    obtain ⟨⟨st, w⟩, hstep, rfl⟩ := Option.map_eq_some_iff.mp h
    have hrunning : (s.calls p).running = true := by
      cases hst : s.calls p with
      | idle =>
        rw [hst] at hstep
        cases hstep
      | accepted r' answer =>
        rw [hst] at hstep
        cases hstep
      | raised r' e =>
        rw [hst] at hstep
        cases hstep
      | _ => rfl
    obtain ⟨st', w', hstep', -, hactive, hphase⟩ := hs.advances hcalm hlone hrunning
    rw [hstep] at hstep'
    cases hstep'
    refine ⟨?_, hphase⟩
    show _ ∨ w.active r.assigneeSubjectId = true
    rw [hactive]
    exact hs.active
  | interrupt p => exact absurd hcalm id
  | work t status started completed now =>
    simp only [step] at h
    split at h
    · rename_i hwork
      obtain ⟨l, hset, rfl⟩ := Option.map_eq_some_iff.mp h
      obtain ⟨old, -, rfl⟩ := Option.map_eq_some_iff.mp hset
      refine hs.write (Ledger.alike_update ..) fun row hkey hstatus => ⟨_, Ledger.byKey_update hkey, ?_⟩
      by_cases hid : row.taskId = t
      · rw [if_pos hid]
        exact ⟨rfl, rfl, hwork.2⟩
      · rw [if_neg hid]
        exact ⟨rfl, rfl, hstatus⟩
    · cases h
  | steer row =>
    obtain ⟨l, hsteer, rfl⟩ := Option.map_eq_some_iff.mp h
    refine hs.write (Ledger.alike_steer hsteer) fun old hkey hstatus => ⟨old, ?_, rfl, rfl, hstatus⟩
    unfold Ledger.byKey
    rw [Ledger.steer_tasks hsteer]
    exact hkey

/-! ### Whole runs -/

/-- Where runs begin: no call, nothing under the key, and an assignee who is active. -/
structure Unused (r : SubmitRequest) (s : Submissions) : Prop where
  idle : ∀ p, s.calls p = .idle
  key : s.world.ledger.byKey r.idempotencyKey = none
  messages : s.world.messages r.idempotencyKey = []
  active : r.assigneeEmployeeId = none ∨ s.world.active r.assigneeSubjectId = true

theorem Unused.agreed (h : s.Unused r) : s.Agreed r := by
  refine ⟨h.active, Or.inl ⟨h.key, h.messages, fun p => Or.inl (Or.inl (h.idle p)), fun p q hp => ?_⟩⟩
  rw [h.idle p] at hp
  cases hp

/-- All calls are over and agree: one of them has created the task, the others have found it, and the
task, its thread and its message are there once. -/
structure Settled (r : SubmitRequest) (s : Submissions) (c : ℕ) (t : String) : Prop where
  creator : (s.calls c).Answered r t false
  others : ∀ q, q ≠ c → s.calls q = .idle ∨ (s.calls q).Answered r t true
  task : ∃ row, row.taskId = t ∧
    ∀ row' ∈ s.world.ledger.tasks.rows, row'.idempotencyKey = r.idempotencyKey ↔ row' = row
  thread : ∃ thread ∈ s.world.ledger.threads.rows,
    ∀ thread' ∈ s.world.ledger.threads.rows, thread'.taskId = t ↔ thread' = thread
  message : ∃ m, s.world.messages r.idempotencyKey = [m] ∧ m.taskId = t

theorem Agreed.not_raised (hs : s.Agreed r) (p : ℕ) (r' : SubmitRequest) (e : SubmitError) :
    s.calls p ≠ .raised r' e := by
  intro hp
  rcases hs.phase with hbefore | ⟨c, t, hafter⟩
  · rcases hbefore.calls p with (hst | hst | hst) | ⟨call, hst, -⟩
    all_goals
      rw [hst] at hp
      cases hp
  · by_cases hpc : p = c
    · subst hpc
      rcases hafter.creator with ⟨⟨a, hst, -⟩ | hst, -⟩ | ⟨hst | hst | ⟨answer, hst, -⟩, -⟩
      all_goals
        rw [hst] at hp
        cases hp
    · rcases hafter.others p hpc with (hst | hst | hst) | ⟨answer, hst, -⟩
      all_goals
        rw [hst] at hp
        cases hp

theorem After.answer {r' : SubmitRequest} {answer : Answer} (hs : s.After r c t)
    (hp : s.calls p = .accepted r' answer) : answer.taskId = t ∧ (answer.duplicate = false → p = c) := by
  by_cases hpc : p = c
  · subst hpc
    rcases hs.creator with ⟨⟨a, hst, -⟩ | hst, -⟩ | ⟨hst | hst | ⟨answer', hst, hid, -⟩, -⟩
    all_goals
      rw [hst] at hp
      cases hp
    exact ⟨hid, fun _ => rfl⟩
  · rcases hs.others p hpc with (hst | hst | hst) | ⟨answer', hst, hid, hdup⟩
    all_goals
      rw [hst] at hp
      cases hp
    refine ⟨hid, fun hnew => ?_⟩
    rw [hdup] at hnew
    cases hnew

theorem Agreed.settled (hs : s.Agreed r) (hmade : ∃ p, s.calls p ≠ .idle)
    (hover : ∀ p, (s.calls p).running = false) : ∃ c t, s.Settled r c t := by
  have hnot : ∀ p st, s.calls p = st → st.running = true → False := by
    intro p st hst hrunning
    rw [← hst, hover p] at hrunning
    cases hrunning
  rcases hs.phase with hbefore | ⟨c, t, hafter⟩
  · obtain ⟨p, hp⟩ := hmade
    rcases hbefore.calls p with (hst | hst | hst) | ⟨call, hst, -⟩
    · exact absurd hst hp
    · exact (hnot p _ hst rfl).elim
    · exact (hnot p _ hst rfl).elim
    · exact (hnot p _ hst rfl).elim
  · refine ⟨c, t, ?_⟩
    have hcreator : (s.calls c).Answered r t false ∧
        ∃ m, s.world.messages r.idempotencyKey = [m] ∧ m.taskId = t := by
      rcases hafter.creator with ⟨⟨a, hst, -⟩ | hst, -⟩ | ⟨hst | hst | hanswered, hone⟩
      · exact (hnot c _ hst rfl).elim
      · exact (hnot c _ hst rfl).elim
      · exact (hnot c _ hst rfl).elim
      · exact (hnot c _ hst rfl).elim
      · exact ⟨hanswered, hone⟩
    refine ⟨hcreator.1, fun q hq => ?_, ?_, ?_, hcreator.2⟩
    · rcases hafter.others q hq with (hst | hst | hst) | hanswered
      · exact .inl hst
      · exact (hnot q _ hst rfl).elim
      · exact (hnot q _ hst rfl).elim
      · exact .inr hanswered
    · obtain ⟨row, hkey, hid, -⟩ := hafter.row
      refine ⟨row, hid, fun row' hrow' => ⟨fun hkey' => ?_, ?_⟩⟩
      · have hfind := Ledger.byKey_eq_some.mpr ⟨hrow', hkey'⟩
        rw [hkey] at hfind
        exact (Option.some.inj hfind).symm
      · rintro rfl
        exact (Ledger.byKey_eq_some.mp hkey).2
    · obtain ⟨thread, hfind⟩ := Option.ne_none_iff_exists'.mp hafter.thread
      refine ⟨thread, Table.find_mem hfind, fun thread' hthread' => ⟨fun hid => ?_, ?_⟩⟩
      · have hfind' := Table.find_of_mem hthread'
        rw [hid, hfind] at hfind'
        exact (Option.some.inj hfind').symm
      · rintro rfl
        exact Table.find_key hfind

/-- **Submissions of one request agree.**  Any number of calls, in any order of their steps, none of
which finds nothing under the key while another one is in `begin`: no call raises; all answers are of
one task, and one call at most says that it is new; every call that is not over can go on and comes
closer to its answer by every step of its own; and when all are over, exactly one has created the task,
which is there once, with one thread and one message. -/
theorem submissions_agree {r : SubmitRequest} {s₀ s : Submissions} {run : List SubmitAction}
    (h₀ : s₀.Unused r) (hmeets : Meets step (fun s a => s.Calm r a ∧ s.Lone a) s₀ run)
    (hrun : exec step s₀ run = some s) :
    (∀ p r' e, s.calls p ≠ .raised r' e) ∧
      (∀ p q r₁ r₂ a b, s.calls p = .accepted r₁ a → s.calls q = .accepted r₂ b →
        a.taskId = b.taskId ∧ (a.duplicate = false → b.duplicate = false → p = q)) ∧
      (∀ p o, (s.calls p).running = true → s.Calm r (.advance p o) → s.Lone (.advance p o) →
        ∃ s', step s (.advance p o) = some s' ∧
          (s'.calls p).remaining < (s.calls p).remaining) ∧
      ((∃ p, s.calls p ≠ .idle) → (∀ p, (s.calls p).running = false) →
        ∃ c t, s.Settled r c t) := by
  have hs : s.Agreed r := exec_invariant
    (fun (s₁ : Submissions) a s₂ hs hok hstep => step_agreed hs hok.1 hok.2 hstep) hmeets hrun h₀.agreed
  refine ⟨hs.not_raised, fun p q r₁ r₂ a b hp hq => ?_, fun p o hrunning hcalm hlone => ?_, hs.settled⟩
  · rcases hs.phase with hbefore | ⟨c, t, hafter⟩
    · rcases hbefore.calls p with (hst | hst | hst) | ⟨call, hst, -⟩
      all_goals
        rw [hst] at hp
        cases hp
    · obtain ⟨hid, hnew⟩ := hafter.answer hp
      obtain ⟨hid', hnew'⟩ := hafter.answer hq
      exact ⟨hid.trans hid'.symm, fun ha hb => (hnew ha).trans (hnew' hb).symm⟩
  · obtain ⟨st, w, hstep, hless, -, -⟩ := hs.advances hcalm hlone hrunning
    refine ⟨{ world := w, calls := update s.calls p st }, ?_, ?_⟩
    · show (SubmitState.step o s.world (s.calls p)).map _ = _
      rw [hstep]
      rfl
    · show (update s.calls p st p).remaining < _
      rw [update_self]
      exact hless

theorem empty_unused (r : SubmitRequest) : empty.Unused r :=
  ⟨fun _ => rfl, rfl, rfl, Or.inr rfl⟩

instance (l : Ledger) (id : String) : Decidable (l.Fresh id) :=
  decidable_of_iff (id ≠ "" ∧ l.tasks.find id = none ∧ l.threads.find id = none ∧
      Ledger.threadOf id ∉ l.threads.rows.map RuntimeThread.threadId ∧
      l.events.find (Ledger.threadOf id, "thread:created") = none)
    ⟨fun ⟨h₁, h₂, h₃, h₄, h₅⟩ => ⟨h₁, h₂, h₃, h₄, h₅⟩,
      fun ⟨h₁, h₂, h₃, h₄, h₅⟩ => ⟨h₁, h₂, h₃, h₄, h₅⟩⟩

/-- What is checked of a step of the first two calls. -/
def calm (s : Submissions) : SubmitAction → Bool
  | .submit p r => p < 2 && decide (r = exampleRequest)
  | .advance p o => p < 2 && decide (o = fine o.taskId) && match s.calls p with
      | .looking _ => decide (s.world.ledger.Fresh o.taskId)
      | _ => true
  | _ => false

/-- The first two calls are not in `begin` when the other one finds nothing. -/
def lone (s : Submissions) : SubmitAction → Bool
  | .advance p _ => match s.calls p with
      | .looking r => (s.world.ledger.byKey r.idempotencyKey).isSome ||
          (List.range 2).all fun q => (s.calls q).isBeginning = false
      | _ => true
  | _ => true

theorem calm_of_calm (h : s.calm a = true) : s.Calm exampleRequest a ∧ within 2 a = true := by
  cases a with
  | submit p r =>
    obtain ⟨hp, hr⟩ := Bool.and_eq_true_iff.mp h
    have hr' : r = exampleRequest := of_decide_eq_true hr
    exact ⟨hr', hp⟩
  | advance p o =>
    obtain ⟨h, hstate⟩ := Bool.and_eq_true_iff.mp h
    obtain ⟨hp, ho⟩ := Bool.and_eq_true_iff.mp h
    have ho : o = fine o.taskId := of_decide_eq_true ho
    refine ⟨⟨?_, ?_, ?_, fun hst => ?_⟩, hp⟩
    · rw [ho]
      rfl
    · rw [ho]
      rfl
    · rw [ho]
      rfl
    · rw [hst] at hstate
      exact of_decide_eq_true hstate
  | interrupt p => cases h
  | work t status started completed now => cases h
  | steer row => cases h

theorem lone_of_lone (hs : s.Few 2) (h : s.lone a = true) : s.Lone a := by
  cases a with
  | advance p o =>
    intro r hst hnone q
    have hstate : ((s.world.ledger.byKey r.idempotencyKey).isSome ||
        (List.range 2).all fun q => (s.calls q).isBeginning = false) = true := by
      have h' := h
      simp only [lone, hst] at h'
      exact h'
    rw [hnone] at hstate
    by_cases hq : q < 2
    · exact of_decide_eq_true (List.all_eq_true.mp hstate q (List.mem_range.mpr hq))
    · rw [hs q (by omega)]
      rfl
  | _ => trivial

/-- The second call looks the key up after the commit of the first. -/
def followed : List SubmitAction :=
  [.submit 0 exampleRequest, .submit 1 exampleRequest] ++
    List.replicate 7 (.advance 0 (fine "TASK-0")) ++
    List.replicate 2 (.advance 1 (fine "TASK-1")) ++ List.replicate 4 (.advance 0 (fine "TASK-0"))

/-- Both are answered with one task, one thread and one message. -/
theorem submissions_agree_followed : ∃ s c t, exec step empty followed = some s ∧
    s.Settled exampleRequest c t := by
  have hx : (exec step empty followed).map (fun s =>
      ((List.range 2).all fun q => (s.calls q).running = false) && (s.calls 0).isMade) = some true := by
    decide +kernel
  have hok : Meets step (fun s a => s.calm a = true ∧ s.lone a = true) empty followed := by
    decide +kernel
  have hfew : ∀ (s₁ : Submissions) a s₂, s₁.Few 2 → s₁.calm a = true ∧ s₁.lone a = true →
      step s₁ a = some s₂ → s₂.Few 2 :=
    fun s₁ a s₂ hs h hstep => step_few hs (calm_of_calm h.1).2 hstep
  have hmeets : Meets step (fun s a => s.Calm exampleRequest a ∧ s.Lone a) empty followed :=
    hok.mono_of_invariant (I := Few 2) hfew
      (fun _ _ hs h => ⟨(calm_of_calm h.1).1, lone_of_lone hs h.2⟩) fun _ _ => rfl
  obtain ⟨s, hs, hx⟩ := Option.map_eq_some_iff.mp hx
  obtain ⟨hover, hmade⟩ := Bool.and_eq_true_iff.mp hx
  have hs2 : s.Few 2 := exec_invariant hfew hok hs fun _ _ => rfl
  obtain ⟨c, t, hsettled⟩ := (submissions_agree (empty_unused exampleRequest) hmeets hs).2.2.2
    ⟨0, fun hidle => by rw [hidle] at hmade; cases hmade⟩ fun q => by
      by_cases hq : q < 2
      · exact of_decide_eq_true (List.all_eq_true.mp hover q (List.mem_range.mpr hq))
      · rw [hs2 q (by omega)]
        rfl
  exact ⟨s, c, t, hs, hsettled⟩

/-- Both calls look the key up before either commits. -/
def rivals : List SubmitAction :=
  [.submit 0 exampleRequest, .submit 1 exampleRequest] ++
    List.replicate 2 (.advance 1 (fine "TASK-1")) ++
    List.replicate 7 (.advance 0 (fine "TASK-0")) ++ List.replicate 3 (.advance 1 (fine "TASK-1"))

/-- **Two calls that both find nothing do not agree.**  The second one finds the key under the id of
the first, and raises. -/
theorem rivals_conflict :
    ¬ ∀ (run : List SubmitAction) (s : Submissions),
      Meets step (fun s a => s.Calm exampleRequest a) empty run → exec step empty run = some s →
      ∀ p r e, s.calls p ≠ .raised r e := by
  intro hagree
  have hx : (exec step empty rivals).map (fun s =>
      match s.calls 1 with | .raised _ _ => true | _ => false) = some true := by
    decide +kernel
  have hok : Meets step (fun s a => s.calm a = true) empty rivals := by
    decide +kernel
  obtain ⟨s, hs, hx⟩ := Option.map_eq_some_iff.mp hx
  cases hst : s.calls 1 with
  | raised r e => exact hagree rivals s (hok.mono fun _ _ h => (calm_of_calm h).1) hs 1 r e hst
  | _ =>
    rw [hst] at hx
    cases hx

end Submissions

end CountyFlow.Submission
