import CountyFlow.Worker.Ledger

/-!
# The tables of a submission

The rows that `IdempotencyService.begin` writes: the task with its two unique columns, the runtime
thread with two unique columns of its own, and the events of the threads.  `begin` is followed
statement by statement, as a call that other calls interleave with.  A call reads twice, inserts the
task (the first flush), inserts the thread (the second flush), and commits both together with the
first event of the thread; an integrity error at any of the three rolls the session back and reads
again.

A flush compares with what is committed, and so does the commit: a row that another call has inserted
and not committed may surface at either.
-/

namespace CountyFlow.Submission

open CountyFlow.Lib CountyFlow.Runtime CountyFlow.Worker

/-! ### Rows -/

structure TaskRow where
  taskId : String
  orderId : ℤ
  anomalyId : Option ℤ
  status : TaskStatus
  idempotencyKey : String
  assigneeSubjectId : Option String
  startedAt : Option ℕ
  completedAt : Option ℕ
  deriving DecidableEq, Repr

/-- A row of `runtime_thread_events`, with the thread it belongs to. -/
structure EventRow where
  threadId : String
  event : RuntimeThreadEvent
  deriving DecidableEq, Repr

/-- `uq_runtime_thread_events_thread_event_key`. -/
def EventRow.key (row : EventRow) : String × String := (row.threadId, row.event.eventKey)

structure Ledger where
  tasks : Table TaskRow TaskRow.taskId
  keys_nodup : (tasks.rows.map TaskRow.idempotencyKey).Nodup
  threads : Table RuntimeThread RuntimeThread.taskId
  threadIds_nodup : (threads.rows.map RuntimeThread.threadId).Nodup
  events : Table EventRow EventRow.key

structure BeginArgs where
  taskId : String
  orderId : ℤ
  idempotencyKey : String
  anomalyId : Option ℤ
  assigneeSubjectId : Option String
  deriving DecidableEq, Repr

namespace BeginArgs

def task (a : BeginArgs) : TaskRow where
  taskId := a.taskId
  orderId := a.orderId
  anomalyId := a.anomalyId
  status := .pending
  idempotencyKey := a.idempotencyKey
  assigneeSubjectId := a.assigneeSubjectId
  startedAt := none
  completedAt := none

def thread (a : BeginArgs) (threadId : String) : RuntimeThread :=
  (ThreadRecord.create a.taskId threadId).row

def created (_ : BeginArgs) (threadId : String) : EventRow where
  threadId := threadId
  event :=
    { eventKey := "thread:created", eventType := .threadCreated, checkpointId := none
      parentCheckpointId := none, stateVersion := 0, node := none, nextNode := none
      checkpointSizeBytes := none, workerConsumer := none, errorCode := none }

end BeginArgs

variable {row : RuntimeThread} {a : BeginArgs} {threadId : String}

namespace Ledger

def empty : Ledger := ⟨.empty, List.nodup_nil, .empty, List.nodup_nil, .empty⟩

/-- `select(DispatchTask).where(idempotency_key == ...)`. -/
def byKey (l : Ledger) (key : String) : Option TaskRow :=
  l.tasks.rows.find? fun row => row.idempotencyKey = key

/-- Insert a task; `none` when one of its unique columns is taken. -/
def insertTask (l : Ledger) (row : TaskRow) : Option Ledger :=
  match h : l.tasks.add row with
  | none => none
  | some tasks =>
    if hkey : row.idempotencyKey ∈ l.tasks.rows.map TaskRow.idempotencyKey then none
    else some
      { l with
        tasks := tasks
        keys_nodup := by
          rw [Table.rows_add h, List.map_append, List.map_singleton]
          exact l.keys_nodup.append (List.nodup_singleton _) (by simpa using hkey) }

/-- Insert a thread; `none` when one of its unique columns is taken. -/
def insertThread (l : Ledger) (row : RuntimeThread) : Option Ledger :=
  match h : l.threads.add row with
  | none => none
  | some threads =>
    if hid : row.threadId ∈ l.threads.rows.map RuntimeThread.threadId then none
    else some
      { l with
        threads := threads
        threadIds_nodup := by
          rw [Table.rows_add h, List.map_append, List.map_singleton]
          exact l.threadIds_nodup.append (List.nodup_singleton _) (by simpa using hid) }

def insertEvent (l : Ledger) (row : EventRow) : Option Ledger :=
  (l.events.add row).map fun events => { l with events := events }

/-- The commit of a new task: its three rows, or nothing. -/
def commit (l : Ledger) (a : BeginArgs) (threadId : String) : Option Ledger :=
  (l.insertTask a.task).bind fun l₁ => (l₁.insertThread (a.thread threadId)).bind fun l₂ =>
    l₂.insertEvent (a.created threadId)

/-- Change the row of a task, but for its id and its key. -/
def update (l : Ledger) (taskId : String) (status : TaskStatus) (startedAt completedAt : Option ℕ) :
    Ledger where
  tasks := l.tasks.modify (fun row => if row.taskId = taskId then
      { row with status := status, startedAt := startedAt, completedAt := completedAt } else row)
    fun row => by
      split <;> rfl
  keys_nodup := by
    have hkeys : (l.tasks.rows.map fun row : TaskRow => if row.taskId = taskId then
        { row with status := status, startedAt := startedAt, completedAt := completedAt }
        else row).map TaskRow.idempotencyKey = l.tasks.rows.map TaskRow.idempotencyKey := by
      rw [List.map_map]
      refine List.map_congr_left fun row _ => ?_
      show (if row.taskId = taskId then _ else row).idempotencyKey = _
      split <;> rfl
    show (List.map _ (List.map _ l.tasks.rows)).Nodup
    rw [hkeys]
    exact l.keys_nodup
  threads := l.threads
  threadIds_nodup := l.threadIds_nodup
  events := l.events

def setStatus (l : Ledger) (taskId : String) (status : TaskStatus) (started completed : Bool)
    (now : ℕ) : Option Ledger :=
  (l.tasks.find taskId).map fun row => l.update taskId status
    (if started then some now else row.startedAt) (if completed then some now else row.completedAt)

/-- What the runtime does to the thread of a task: its row keeps its two ids. -/
def steer (l : Ledger) (row : RuntimeThread) : Option Ledger :=
  match h : l.threads.find row.taskId with
  | none => none
  | some old =>
    if hid : row.threadId = old.threadId then some
      { l with
        threads := l.threads.replace row
        threadIds_nodup := by
          have hids : (l.threads.replace row).rows.map RuntimeThread.threadId =
              l.threads.rows.map RuntimeThread.threadId := by
            show (l.threads.rows.map _).map _ = _
            rw [List.map_map]
            refine List.map_congr_left fun r hr => ?_
            show (if r.taskId = row.taskId then row else r).threadId = r.threadId
            split
            · rename_i hsame
              have hfind := Table.find_of_mem hr
              rw [hsame, h] at hfind
              rw [hid, Option.some.inj hfind]
            · rfl
          rw [hids]
          exact l.threadIds_nodup }
    else none

/-! ### What the tables do -/

variable {l : Ledger}

theorem byKey_eq_some {key : String} {row : TaskRow} :
    l.byKey key = some row ↔ row ∈ l.tasks.rows ∧ row.idempotencyKey = key := by
  constructor
  · intro h
    exact ⟨List.mem_of_find?_eq_some h, by simpa using List.find?_some h⟩
  · rintro ⟨hmem, rfl⟩
    cases hf : l.byKey row.idempotencyKey with
    | none =>
      have hnot := List.find?_eq_none.mp hf row hmem
      simp at hnot
    | some row' =>
      have hkey : row'.idempotencyKey = row.idempotencyKey := by simpa using List.find?_some hf
      have hrow : row' ∈ l.tasks.rows := List.mem_of_find?_eq_some hf
      rw [List.inj_on_of_nodup_map l.keys_nodup hrow hmem hkey]

theorem byKey_eq_none {key : String} :
    l.byKey key = none ↔ ∀ row ∈ l.tasks.rows, row.idempotencyKey ≠ key := by
  unfold byKey
  rw [List.find?_eq_none]
  simp only [decide_eq_true_eq]

variable {l' : Ledger}

theorem insertTask_ok {row : TaskRow} (h : l.insertTask row = some l') :
    l'.tasks.rows = l.tasks.rows ++ [row] ∧ l.tasks.find row.taskId = none ∧
      l.byKey row.idempotencyKey = none ∧ l'.threads = l.threads ∧ l'.events = l.events := by
  unfold insertTask at h
  split at h
  · cases h
  · rename_i tasks hadd
    split at h
    · cases h
    · rename_i hkey
      cases h
      refine ⟨Table.rows_add hadd, Table.find_none_of_add hadd, ?_, rfl, rfl⟩
      refine byKey_eq_none.mpr fun row' hrow' heq => hkey ?_
      exact List.mem_map.mpr ⟨row', hrow', heq⟩

theorem insertThread_ok (h : l.insertThread row = some l') :
    l'.threads.rows = l.threads.rows ++ [row] ∧ l.threads.find row.taskId = none ∧
      l'.tasks = l.tasks ∧ l'.events = l.events := by
  unfold insertThread at h
  split at h
  · cases h
  · rename_i threads hadd
    split at h
    · cases h
    · cases h
      exact ⟨Table.rows_add hadd, Table.find_none_of_add hadd, rfl, rfl⟩

theorem insertEvent_ok {row : EventRow} (h : l.insertEvent row = some l') :
    l'.events.rows = l.events.rows ++ [row] ∧ l'.tasks = l.tasks ∧ l'.threads = l.threads := by
  obtain ⟨events, hadd, rfl⟩ := Option.map_eq_some_iff.mp h
  exact ⟨Table.rows_add hadd, rfl, rfl⟩

/-- The tables have gained a task, its thread and the first event of the thread. -/
structure Gains (l l' : Ledger) (a : BeginArgs) (threadId : String) : Prop where
  tasks : l'.tasks.rows = l.tasks.rows ++ [a.task]
  threads : l'.threads.rows = l.threads.rows ++ [a.thread threadId]
  events : l'.events.rows = l.events.rows ++ [a.created threadId]
  freeId : l.tasks.find a.taskId = none
  freeKey : l.byKey a.idempotencyKey = none

theorem commit_gains (h : l.commit a threadId = some l') : Gains l l' a threadId := by
  obtain ⟨l₁, h₁, h⟩ := Option.bind_eq_some_iff.mp h
  obtain ⟨l₂, h₂, h₃⟩ := Option.bind_eq_some_iff.mp h
  obtain ⟨htasks, hid, hkey, hthreads₁, hevents₁⟩ := insertTask_ok h₁
  obtain ⟨hthreads, -, htasks₂, hevents₂⟩ := insertThread_ok h₂
  obtain ⟨hevents, htasks₃, hthreads₃⟩ := insertEvent_ok h₃
  refine ⟨?_, ?_, ?_, hid, hkey⟩
  · rw [htasks₃, htasks₂]
    exact htasks
  · rw [hthreads₃, hthreads, hthreads₁]
  · rw [hevents, hevents₂, hevents₁]

/-- Every task has its thread, and every thread of a task its first event. -/
def Whole (l : Ledger) : Prop :=
  ∀ row ∈ l.tasks.rows, ∃ thread ∈ l.threads.rows, thread.taskId = row.taskId ∧
    ∃ event ∈ l.events.rows, event.threadId = thread.threadId ∧
      event.event.eventKey = "thread:created" ∧ event.event.eventType = .threadCreated

theorem Gains.whole (h : Gains l l' a threadId) (hl : l.Whole) : l'.Whole := by
  intro row hrow
  rw [h.tasks] at hrow
  rcases List.mem_append.mp hrow with hold | hnew
  · obtain ⟨thread, hthread, hid, event, hevent, hkind⟩ := hl row hold
    refine ⟨thread, ?_, hid, event, ?_, hkind⟩
    · rw [h.threads]
      exact List.mem_append_left _ hthread
    · rw [h.events]
      exact List.mem_append_left _ hevent
  · obtain rfl := List.mem_singleton.mp hnew
    refine ⟨a.thread threadId, ?_, rfl, a.created threadId, ?_, rfl, rfl, rfl⟩
    · rw [h.threads]
      exact List.mem_append_right _ (List.mem_singleton.mpr rfl)
    · rw [h.events]
      exact List.mem_append_right _ (List.mem_singleton.mpr rfl)

/-- The rows keep their ids and keys. -/
def pairs (l : Ledger) : List (String × String) :=
  l.tasks.rows.map fun row => (row.taskId, row.idempotencyKey)

theorem Gains.pairs (h : Gains l l' a threadId) : l'.pairs = l.pairs ++ [(a.taskId, a.idempotencyKey)] := by
  unfold Ledger.pairs
  rw [h.tasks, List.map_append]
  rfl

theorem update_pairs (l : Ledger) (taskId : String) (status : TaskStatus) (startedAt completedAt : Option ℕ) :
    (l.update taskId status startedAt completedAt).pairs = l.pairs := by
  unfold pairs
  show (l.tasks.rows.map _).map _ = _
  rw [List.map_map]
  refine List.map_congr_left fun row _ => ?_
  show ((if row.taskId = taskId then _ else row).taskId, _) = _
  by_cases h : row.taskId = taskId
  · simp only [if_pos h]
  · simp only [if_neg h]

theorem update_whole (taskId : String) (status : TaskStatus) (startedAt completedAt : Option ℕ)
    (h : l.Whole) : (l.update taskId status startedAt completedAt).Whole := by
  intro row hrow
  have hmem : (row.taskId, row.idempotencyKey) ∈ l.pairs := by
    rw [← update_pairs l taskId status startedAt completedAt]
    exact List.mem_map_of_mem hrow
  obtain ⟨old, hold, hsame⟩ := List.mem_map.mp hmem
  rw [← (Prod.mk.inj hsame).1]
  exact h old hold

theorem steer_tasks (h : l.steer row = some l') : l'.tasks = l.tasks := by
  unfold steer at h
  split at h
  · cases h
  · split at h
    · cases h
      rfl
    · cases h

theorem steer_whole (h : l.steer row = some l') (hl : l.Whole) : l'.Whole ∧ l'.pairs = l.pairs := by
  unfold steer at h
  split at h
  · cases h
  · rename_i old hfind
    split at h
    · rename_i hid
      cases h
      refine ⟨fun task htask => ?_, rfl⟩
      obtain ⟨thread, hthread, htaskId, event, hevent, hof, hkind⟩ := hl task htask
      by_cases hsame : thread.taskId = row.taskId
      · have hold := Table.find_of_mem hthread
        rw [hsame, hfind] at hold
        have hthread' : row ∈ (l.threads.replace row).rows :=
          List.mem_map.mpr ⟨thread, hthread, if_pos hsame⟩
        refine ⟨row, hthread', hsame.symm.trans htaskId, event, hevent, ?_, hkind⟩
        rw [hof, hid, Option.some.inj hold]
      · exact ⟨thread, List.mem_map.mpr ⟨thread, hthread, if_neg hsame⟩, htaskId, event, hevent, hof,
          hkind⟩
    · cases h

theorem insertEvent_whole {row : EventRow} (h : l.insertEvent row = some l') (hl : l.Whole) :
    l'.Whole ∧ l'.pairs = l.pairs := by
  obtain ⟨hevents, htasks, hthreads⟩ := insertEvent_ok h
  refine ⟨fun task htask => ?_, ?_⟩
  · rw [htasks] at htask
    obtain ⟨thread, hthread, hid, event, hevent, hkind⟩ := hl task htask
    refine ⟨thread, ?_, hid, event, ?_, hkind⟩
    · rw [hthreads]
      exact hthread
    · rw [hevents]
      exact List.mem_append_left _ hevent
  · unfold pairs
    rw [htasks]

theorem pairs_iff {t t' k k' : String} (h : (t, k) ∈ l.pairs) (h' : (t', k') ∈ l.pairs) :
    t = t' ↔ k = k' := by
  obtain ⟨row, hrow, hpair⟩ := List.mem_map.mp h
  obtain ⟨row', hrow', hpair'⟩ := List.mem_map.mp h'
  obtain ⟨rfl, rfl⟩ := Prod.mk.inj hpair
  obtain ⟨rfl, rfl⟩ := Prod.mk.inj hpair'
  constructor
  · intro hid
    rw [List.inj_on_of_nodup_map l.tasks.unique hrow hrow' hid]
  · intro hkey
    rw [List.inj_on_of_nodup_map l.keys_nodup hrow hrow' hkey]

end Ledger

/-! ### A call of `begin` -/

inductive BeginError where
  | idempotencyConflict
  | valueError (message : String)
  | integrityError
  | databaseError
  deriving DecidableEq, Repr

/-- What the database does with a flush or a commit: let it through to the unique constraints, report
another constraint (an order or an anomaly that does not exist), or fail. -/
inductive Fate where
  | checked
  | integrity
  | failed
  deriving DecidableEq, Repr

/-- What the world contributes to a statement: its fate, and whether the second query of a
transaction sees what its first one saw or what is committed by then. -/
structure BeginOutcome where
  fate : Fate
  repeatable : Bool
  deriving DecidableEq, Repr

/-- A point of `begin` between two statements; `again` says that the session was rolled back after an
integrity error. -/
inductive BeginState where
  | idle
  | byTask (a : BeginArgs) (again : Bool)
  | byKey (a : BeginArgs) (again : Bool) (seen : Ledger) (found : Option TaskRow)
  | adding (a : BeginArgs) (threadId : String)
  | threading (a : BeginArgs) (threadId : String)
  | committing (a : BeginArgs) (threadId : String)
  | returned (a : BeginArgs) (decision : IdempotencyDecision)
  | raised (a : BeginArgs) (error : BeginError)

/-- `_existing`, on the answers of its two queries. -/
def existing (a : BeginArgs) (byTask byKey : Option TaskRow) : Except BeginError (Option TaskRow) :=
  if byTask.any fun row => row.idempotencyKey ≠ a.idempotencyKey then .error .idempotencyConflict
  else if byKey.any fun row => row.taskId ≠ a.taskId then .error .idempotencyConflict
  else .ok (byTask <|> byKey)

def decision (row : TaskRow) : IdempotencyDecision :=
  if row.status.terminal then
    ⟨.terminal, row.taskId, row.idempotencyKey, some row.status, false, "Task is terminal."⟩
  else
    ⟨.inProgress, row.taskId, row.idempotencyKey, some row.status, false, "Task already exists."⟩

def BeginArgs.new (a : BeginArgs) : IdempotencyDecision :=
  ⟨.new, a.taskId, a.idempotencyKey, none, true, "Ledger created."⟩

def threadIdForPersistedTask (taskId : String) : Except BeginError String :=
  if taskId = "" then .error (.valueError "Runtime thread task ID is invalid.")
  else .ok ("cf:dispatch:" ++ taskId)

namespace BeginState

/-- After the two queries: the decision about what is there, or the first insertion; after a
rollback the integrity error is raised again when nothing is there. -/
def afterQueries (a : BeginArgs) (again : Bool) (byTask byKey : Option TaskRow) : BeginState :=
  match existing a byTask byKey with
  | .error e => .raised a e
  | .ok (some row) => .returned a (decision row)
  | .ok none =>
    if again then .raised a .integrityError
    else match threadIdForPersistedTask a.taskId with
      | .error e => .raised a e
      | .ok threadId => .adding a threadId

/-- A flush: `next` when it goes through, the second reading after an integrity error. -/
def flush (a : BeginArgs) (fate : Fate) (free : Bool) (next : BeginState) : BeginState :=
  match fate with
  | .checked => if free then next else .byTask a true
  | .integrity => .byTask a true
  | .failed => .raised a .databaseError

/-- One statement of a call; `none` when it is over. -/
def step (o : BeginOutcome) (l : Ledger) : BeginState → Option (BeginState × Ledger)
  | .idle | .returned _ _ | .raised _ _ => none
  | .byTask a again =>
    if o.fate = .failed then some (.raised a .databaseError, l)
    else some (.byKey a again l (l.tasks.find a.taskId), l)
  | .byKey a again seen found =>
    if o.fate = .failed then some (.raised a .databaseError, l)
    else some (afterQueries a again found
      ((if o.repeatable then seen else l).byKey a.idempotencyKey), l)
  | .adding a threadId =>
    some (flush a o.fate (l.insertTask a.task).isSome (.threading a threadId), l)
  | .threading a threadId =>
    some (flush a o.fate (l.insertThread (a.thread threadId)).isSome (.committing a threadId), l)
  | .committing a threadId =>
    match o.fate, l.commit a threadId with
    | .checked, some l' => some (.returned a a.new, l')
    | .checked, none | .integrity, _ => some (.byTask a true, l)
    | .failed, _ => some (.raised a .databaseError, l)

def args : BeginState → Option BeginArgs
  | .idle => none
  | .byTask a _ | .byKey a _ _ _ | .adding a _ | .threading a _ | .committing a _ | .returned a _
  | .raised a _ => some a

/-- The call has returned `NEW`. -/
def isNew : BeginState → Bool
  | .returned _ decision => decision.state = .new
  | _ => false

theorem decision_not_new (row : TaskRow) : (decision row).state ≠ .new := by
  unfold decision
  split <;> nofun

/-- The call goes on with its arguments, and has not returned `NEW`. -/
def Quiet (a : BeginArgs) (st : BeginState) : Prop := st.args = some a ∧ st.isNew = false

theorem quiet_afterQueries (a : BeginArgs) (again : Bool) (byTask byKey : Option TaskRow) :
    Quiet a (afterQueries a again byTask byKey) := by
  unfold afterQueries
  split
  · exact ⟨rfl, rfl⟩
  · exact ⟨rfl, decide_eq_false (decision_not_new _)⟩
  · split
    · exact ⟨rfl, rfl⟩
    · split <;> exact ⟨rfl, rfl⟩

theorem quiet_flush {fate : Fate} {free : Bool} {next : BeginState}
    (h : Quiet a next) : Quiet a (flush a fate free next) := by
  unfold flush
  split
  · split
    · exact h
    · exact ⟨rfl, rfl⟩
  · exact ⟨rfl, rfl⟩
  · exact ⟨rfl, rfl⟩

/-- A step of `begin` commits its task or leaves the tables alone. -/
theorem step_moves {o : BeginOutcome} {l l' : Ledger} {st st' : BeginState}
    (h : step o l st = some (st', l')) :
    st'.args = st.args ∧
      ((l' = l ∧ st'.isNew = false) ∨
        ∃ a threadId, st = .committing a threadId ∧ st' = .returned a a.new ∧
          l.commit a threadId = some l') := by
  have hquiet : ∀ {st₁ : BeginState} {a : BeginArgs}, st.args = some a → Quiet a st₁ →
      some (st₁, l) = some (st', l') → st'.args = st.args ∧ ((l' = l ∧ st'.isNew = false) ∨
        ∃ a threadId, st = .committing a threadId ∧ st' = .returned a a.new ∧
          l.commit a threadId = some l') := by
    intro st₁ a hst ⟨hargs, hnot⟩ heq
    cases heq
    exact ⟨hargs.trans hst.symm, Or.inl ⟨rfl, hnot⟩⟩
  cases st with
  | idle => cases h
  | returned a d => cases h
  | raised a e => cases h
  | byTask a again =>
    simp only [step] at h
    split at h
    · exact hquiet rfl ⟨rfl, rfl⟩ h
    · exact hquiet rfl ⟨rfl, rfl⟩ h
  | byKey a again seen found =>
    simp only [step] at h
    split at h
    · exact hquiet rfl ⟨rfl, rfl⟩ h
    · exact hquiet rfl (quiet_afterQueries _ _ _ _) h
  | adding a threadId => exact hquiet rfl (quiet_flush ⟨rfl, rfl⟩) h
  | threading a threadId => exact hquiet rfl (quiet_flush ⟨rfl, rfl⟩) h
  | committing a threadId =>
    simp only [step] at h
    split at h
    · rename_i l₁ _ hcommit
      cases h
      exact ⟨rfl, Or.inr ⟨a, threadId, rfl, rfl, hcommit⟩⟩
    · exact hquiet rfl ⟨rfl, rfl⟩ h
    · exact hquiet rfl ⟨rfl, rfl⟩ h
    · exact hquiet rfl ⟨rfl, rfl⟩ h

end BeginState

end CountyFlow.Submission
