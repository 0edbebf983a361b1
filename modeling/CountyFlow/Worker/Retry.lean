import CountyFlow.Submission.Submit
import CountyFlow.Worker.Acknowledge

/-!
# Retries of a failed submission

`DispatchTaskApiService.submit` on a key whose task is `SUBMISSION_FAILED`: `_publish_existing`
appends the message first and sets the task to `PENDING` afterwards, whatever the task is by then.
The calls run beside the workers, which may take the message as soon as it is there.
-/

namespace CountyFlow.Worker

open CountyFlow.Lib CountyFlow.Runtime Function

/-! ### The calls -/

/-- What a call compares with the row, and the type of anomaly it reports. -/
structure RetryRequest where
  orderId : ℤ
  idempotencyKey : String
  anomalyType : String
  deriving DecidableEq, Repr

/-- What the world contributes to a step of a call: the id of the entry, the queue, whether the step
raises, and whether the assignee of the row is that of the request. -/
structure RetryOutcome where
  messageId : String
  queue : Submission.QueueOutcome
  fails : Bool
  assigned : Bool
  deriving DecidableEq, Repr

inductive RetryError where
  | idempotencyConflict
  | submissionQueue
  | taskNotFound
  | other
  deriving DecidableEq, Repr

inductive RetryState where
  | idle
  | looking (r : RetryRequest)
  | republishing (r : RetryRequest) (row : DispatchTask)
  | resetting (r : RetryRequest) (taskId : String)
  | answering (r : RetryRequest) (taskId : String)
  | accepted (taskId : String) (status : TaskStatus)
  | absent
  | raised (error : RetryError)
  deriving DecidableEq, Repr

namespace Db

def setSubmissionPending (db : Db) (taskId : String) : Option Db :=
  (db.tasks.find taskId).map fun task =>
    { db with tasks := db.tasks.replace { task with status := .pending, completedAt := none } }

/-- A worker has written the status of the task: it is neither `PENDING` nor `SUBMISSION_FAILED`. -/
def Past (db : Db) (t : String) : Prop :=
  ∃ task, db.tasks.find t = some task ∧ task.status ≠ .pending ∧ task.status ≠ .submissionFailed

end Db

namespace RetryState

def messageOf (r : RetryRequest) (row : DispatchTask) : DispatchTaskMessage :=
  ⟨row.taskId, row.orderId, row.idempotencyKey, r.anomalyType⟩

/-- Append an entry; Redis draws a new id. -/
def publish (w : World) (messageId : String) (task : DispatchTaskMessage) : Option World :=
  if w.stream messageId = none then
    some { w with stream := update w.stream messageId (some ⟨task, .new⟩) }
  else none

/-- After `_by_key`. -/
def afterLook (r : RetryRequest) (assigned : Bool) : Option DispatchTask → RetryState
  | none => .absent
  | some row =>
    if row.orderId ≠ r.orderId ∨ assigned = false then .raised .idempotencyConflict
    else if row.status = .submissionFailed then .republishing r row
    else .accepted row.taskId row.status

/-- One step of a call; `none` when it is over. -/
def step (o : RetryOutcome) (w : World) : RetryState → Option (RetryState × World)
  | .idle | .accepted _ _ | .absent | .raised _ => none
  | .looking r =>
    if o.fails then some (.raised .other, w)
    else some (afterLook r o.assigned (w.db.byKey r.idempotencyKey), w)
  | .republishing r row =>
    match o.queue with
    | .appended => (publish w o.messageId (messageOf r row)).map fun w' =>
      (.resetting r row.taskId, w')
    | .lost => (publish w o.messageId (messageOf r row)).map fun w' =>
      (.raised .submissionQueue, w')
    | .refused => some (.raised .submissionQueue, w)
    | .broken => some (.raised .other, w)
  | .resetting r t =>
    if o.fails then some (.raised .other, w)
    else match w.db.setSubmissionPending t with
      | none => some (.raised .taskNotFound, w)
      | some db => some (.answering r t, { w with db := db })
  | .answering _ t =>
    if o.fails then some (.raised .other, w)
    else match w.db.tasks.find t with
      | none => some (.raised .taskNotFound, w)
      | some task => some (.accepted t task.status, w)

/-- The task that the call has found `SUBMISSION_FAILED` and has yet to reset. -/
def resets : RetryState → Option String
  | .republishing _ row => some row.taskId
  | .resetting _ t => some t
  | _ => none

def running : RetryState → Bool
  | .looking _ | .republishing _ _ | .resetting _ _ | .answering _ _ => true
  | _ => false

end RetryState

/-! ### The system -/

structure Retries where
  system : System
  calls : ℕ → RetryState

/-- Who moves: the workers and their world, a call, or the call that created a task and could not
append its message. -/
inductive RetryAction where
  | work (a : Action)
  | submit (c : ℕ) (r : RetryRequest)
  | advance (c : ℕ) (o : RetryOutcome)
  | interrupt (c : ℕ)
  | giveUp (taskId : String) (now : ℕ)
  deriving DecidableEq, Repr

namespace Retries

variable (config : WorkerConfig)

/-- The state after an action, `none` when it is not enabled.  A task is given up while nobody has got
a message of it. -/
def step (s : Retries) : RetryAction → Option Retries
  | .work a => (System.step config s.system a).map fun system => { s with system := system }
  | .submit c r =>
    match s.calls c with
    | .idle => some { s with calls := update s.calls c (.looking r) }
    | _ => none
  | .advance c o =>
    (RetryState.step o s.system.world (s.calls c)).map fun (st, world) =>
      { system := { s.system with world := world }, calls := update s.calls c st }
  | .interrupt c =>
    if (s.calls c).running then
      some { s with calls := update s.calls c (.raised .other) }
    else none
  | .giveUp taskId now =>
    if s.system.status taskId = some .pending then
      (s.system.world.db.markTerminal taskId .submissionFailed now true).toOption.map fun db =>
        { s with system := { s.system with world := { s.system.world with db := db } } }
    else none

variable {config}

/-- No worker writes the status of a task that a call has found `SUBMISSION_FAILED` and has yet to
reset. -/
def Timely (s : Retries) : RetryAction → Prop
  | .work (.advance p _) => ∀ m,
      (s.system.workers p = .starting m ∨ ∃ path, s.system.workers p = .recording m path) →
      ∀ c, (s.calls c).resets ≠ some m.task.taskId
  | _ => True

end Retries

/-! ### What is past stays past -/

variable {db db' : Db} {t : String} {task : DispatchTask} {commits : Bool} {d : IdempotencyDecision}

namespace Db

theorem past_of_terminal (hfind : db.tasks.find t = some task)
    (h : task.status.terminal = true) : db.Past t := by
  refine ⟨task, hfind, fun hp => ?_, fun hp => ?_⟩
  · rw [hp] at h
    cases h
  · rw [hp] at h
    cases h

theorem Past.of_find (h : db.Past t) (hsame : db'.tasks.find t = db.tasks.find t) : db'.Past t := by
  obtain ⟨task, hfind, hstatus⟩ := h
  exact ⟨task, hsame.trans hfind, hstatus⟩

theorem begin_past {taskId key : String} {orderId : ℤ}
    (h : db.begin taskId orderId key commits = .ok (d, db')) : db'.Past t ↔ db.Past t := by
  obtain hsame | ⟨-, hnone, hnew⟩ := begin_find h t
  · exact ⟨fun hp => hp.of_find hsame.symm, fun hp => hp.of_find hsame⟩
  · constructor
    · rintro ⟨task, hfind, hpending, -⟩
      rw [hnew] at hfind
      rw [← Option.some.inj hfind] at hpending
      exact absurd rfl hpending
    · rintro ⟨task, hfind, -⟩
      rw [hnone] at hfind
      cases hfind

theorem decide_past {t' : String} {decision : ReviewDecision} {reason : Option String} {auditId now : ℕ}
    (h : db.decide t decision reason auditId now commits = .ok db') : db'.Past t' ↔ db.Past t' := by
  obtain ⟨-, hsame⟩ | ⟨task, task', -, hfind, hreview, hfind', hstatus⟩ := System.decide_find h t'
  · exact ⟨fun hp => hp.of_find hsame.symm, fun hp => hp.of_find hsame⟩
  · constructor
    · intro _
      refine past_of_terminal hfind ?_
      rw [hreview]
      rfl
    · intro _
      refine ⟨task', hfind', ?_⟩
      rw [hstatus]
      cases decision with
      | approve => decide
      | reject => decide

end Db

variable {st st' : WorkerState} {m : StreamMessage} {path : Path} {w w' : World} {p : ℕ} {o : Outcome}

namespace WorkerState

/-- What a worker on its way to an acknowledgement knows: the status it is going to record is terminal,
and one that it takes for recorded is past. -/
def Assured (db : Db) : WorkerState → Prop
  | .looking m path | .terminating m path _ => path.status.terminal = true ∧
      (path.replayed = true → db.Past m.task.taskId)
  | .recording _ path => path.status.terminal = true
  | .publishing m _ | .handling m _ | .appending m _ | .acking m _ => db.Past m.task.taskId
  | _ => True

theorem Assured.mono (h : Assured db st) (hpast : ∀ t, db.Past t → db'.Past t) : Assured db' st := by
  cases st with
  | looking m path => exact ⟨h.1, fun hpath => hpast _ (h.2 hpath)⟩
  | terminating m path node => exact ⟨h.1, fun hpath => hpast _ (h.2 hpath)⟩
  | recording m path => exact h
  | publishing m path => exact hpast _ h
  | handling m path => exact hpast _ h
  | appending m n => exact hpast _ h
  | acking m path => exact hpast _ h
  | _ => trivial

theorem assured_abortPath (db : Db) (m : StreamMessage) (path : Path) : Assured db (abortPath m path) := by
  cases path <;> trivial

theorem assured_failed (db : Db) (st : WorkerState) : Assured db st.failed := by
  cases st with
  | looking m path => exact assured_abortPath db m path
  | terminating m path node => exact assured_abortPath db m path
  | recording m path => exact assured_abortPath db m path
  | publishing m path => exact assured_abortPath db m path
  | handling m path => exact assured_abortPath db m path
  | acking m path => exact assured_abortPath db m path
  | _ => trivial

theorem assured_afterTerminal (hterm : path.status.terminal = true)
    (hreplay : path.replayed = true → db.Past m.task.taskId) : Assured db (afterTerminal m path) := by
  cases path with
  | replay status => exact hreplay rfl
  | _ => exact hterm

theorem assured_terminate (config : WorkerConfig) {node : Option String} (o : Outcome)
    (ha : Assured w.db (.terminating m path node)) :
    Assured (terminate config m path node o w).2.db (terminate config m path node o w).1 := by
  unfold terminate
  split
  · exact assured_afterTerminal ha.1 ha.2
  · split
    · exact assured_afterTerminal ha.1 ha.2
    · exact assured_afterTerminal ha.1 ha.2

theorem assured_afterBegin
    (h : db.begin m.task.taskId m.task.orderId m.task.idempotencyKey commits = .ok (d, db')) :
    Assured db' (afterBegin m d) := by
  obtain ⟨task, rfl, hfind, -, rfl⟩ | ⟨tasks, threadId, hnew, -, -, -, rfl⟩ := Db.begin_ok h
  · rw [System.afterBegin_decision]
    split
    · rename_i hterm
      exact ⟨hterm, fun _ => Db.past_of_terminal hfind hterm⟩
    · trivial
  · unfold afterBegin
    rw [hnew]
    trivial

theorem assured_afterReconcile (db : Db) (m : StreamMessage) (r : ExecutionReconciliation) :
    Assured db (afterReconcile m r) := by
  unfold afterReconcile
  split
  · rename_i hterminal
    refine ⟨?_, fun hpath => by cases hpath⟩
    rcases of_decide_eq_true hterminal with hr | hr
    · rw [hr]
      rfl
    · rw [hr]
      rfl
  · trivial

theorem assured_graphStep (config : WorkerConfig) (m : StreamMessage) (state : IdempotencyState) (o : Outcome)
    (w : World) : Assured (graphStep config m state o w).2.db (graphStep config m state o w).1 := by
  unfold graphStep
  split
  · split
    · trivial
    · split <;> trivial
  · trivial
  · trivial
  · trivial
  · unfold afterGraph
    split
    · rename_i status review code hfinal
      exact ⟨terminalState_terminal hfinal, fun hpath => by cases hpath⟩
    · split
      · trivial
      · split <;> trivial

theorem assured_afterRecord {now : ℕ} (h : db.markTerminal m.task.taskId path.status now commits = .ok db')
    (hterm : path.status.terminal = true) : Assured db' (afterRecord m path) := by
  have hpast : db'.Past m.task.taskId := by
    obtain ⟨hne, -⟩ | ⟨task, task', -, -, hfind', -, hstatus⟩ := Db.setStatus_find h m.task.taskId
    · exact absurd rfl hne
    · refine Db.past_of_terminal hfind' ?_
      rw [hstatus]
      exact hterm
  cases path <;> exact hpast

variable {config : WorkerConfig}

/-- One step of a worker keeps what it knows on its way to the acknowledgement. -/
theorem step_assured (h : step config p o w st = some (st', w')) (ha : Assured w.db st) :
    Assured w'.db st' := by
  cases st with
  | idle => cases h
  | done result => cases h
  | recovering m =>
    cases h
    unfold recover
    split
    · trivial
    · split <;> trivial
  | probing m n =>
    simp only [step] at h
    split at h
    · cases h
      trivial
    · split at h <;> cases h <;> trivial
  | probed m n =>
    simp only [step] at h
    split at h
    · cases h
      trivial
    · cases h
      exact ⟨rfl, fun hpath => by cases hpath⟩
  | acquiring m =>
    simp only [step] at h
    split at h
    · cases h
      trivial
    · split at h <;> cases h <;> trivial
  | beginning m =>
    simp only [step] at h
    split at h
    · cases h
      trivial
    · split at h
      · cases h
        trivial
      · rename_i d db hbegin
        cases h
        exact assured_afterBegin hbegin
  | reconciling m =>
    simp only [step] at h
    split at h
    · cases h
      trivial
    · cases h
      exact assured_afterReconcile _ m _
  | starting m =>
    simp only [step] at h
    split at h <;> cases h <;> trivial
  | loading m state =>
    simp only [step] at h
    split at h <;> cases h <;> trivial
  | mending m state =>
    simp only [step] at h
    split at h
    · split at h <;> cases h <;> trivial
    · split at h <;> cases h <;> trivial
  | running m state =>
    obtain ⟨rfl, rfl⟩ := Prod.mk.inj (Option.some.inj h)
    exact assured_graphStep config m state o w
  | looking m path =>
    simp only [step] at h
    split at h
    · cases h
      exact assured_abortPath _ m path
    · split at h
      · cases h
        cases path <;> trivial
      · cases h
        exact ha
  | terminating m path node =>
    obtain ⟨rfl, rfl⟩ := Prod.mk.inj (Option.some.inj h)
    exact assured_terminate config o ha
  | recording m path =>
    simp only [step] at h
    split at h
    · cases h
      exact assured_abortPath _ m path
    · rename_i db hmark
      cases h
      exact assured_afterRecord hmark ha
  | publishing m path =>
    simp only [step] at h
    split at h
    · cases h
      trivial
    · cases h
      exact ha
  | handling m path =>
    simp only [step] at h
    split at h
    · cases h
      trivial
    · cases h
      exact ha
  | appending m n =>
    simp only [step] at h
    split at h
    · cases h
      trivial
    · cases h
      exact ha
  | acking m path =>
    simp only [step] at h
    split at h
    · cases h
      exact assured_abortPath _ m path
    · cases path <;> cases h <;> trivial
  | releasing m result =>
    simp only [step] at h
    split at h <;> cases h <;> trivial

theorem moves_past (h : Moves config p w st st' w') (ha : Assured w.db st) :
    (w.db.Past t → w'.db.Past t) ∧
      (w'.db.Past t → w.db.Past t ∨ ∃ m, t = m.task.taskId ∧
        (st = .starting m ∨ ∃ path, st = .recording m path)) := by
  obtain hsame | ⟨m, -, -, hnone, task, hfind, hpending⟩ | ⟨task, task', hfind, hfind', -, hwho⟩ := h.row t
  · exact ⟨fun hp => hp.of_find hsame, fun hp => Or.inl (hp.of_find hsame.symm)⟩
  · refine ⟨fun ⟨task₁, hfind₁, _⟩ => ?_, fun ⟨task₁, hfind₁, hnot, _⟩ => ?_⟩
    · rw [hnone] at hfind₁
      cases hfind₁
    · rw [hfind] at hfind₁
      rw [← Option.some.inj hfind₁] at hnot
      exact absurd hpending hnot
  · obtain ⟨m, hst, hid, hstatus⟩ | ⟨m, path, hst, hid, hstatus⟩ := hwho
    · refine ⟨fun _ => ⟨task', hfind', ?_⟩, fun _ => Or.inr ⟨m, hid, Or.inl hst⟩⟩
      rw [hstatus]
      decide
    · refine ⟨fun _ => Db.past_of_terminal hfind' ?_, fun _ => Or.inr ⟨m, hid, Or.inr ⟨path, hst⟩⟩⟩
      rw [hst] at ha
      rw [hstatus]
      exact ha

end WorkerState

/-! ### The workers -/

variable {s : System} {id : String}

namespace System

variable {config : WorkerConfig}

/-- The workers work on entries of the stream, know what they count on, and have acknowledged only
what is past. -/
structure Sound (s : System) : Prop where
  entry : ∀ p m, (s.workers p).message = some m → ∃ d, s.world.stream m.messageId = some ⟨m.task, d⟩
  assured : ∀ p, (s.workers p).Assured s.world.db
  acknowledged : ∀ id task, s.world.stream id = some ⟨task, .acknowledged⟩ →
    s.world.db.Past task.taskId

/-- The task is one whose status the worker that moves is about to write. -/
def Writes (s : System) (a : Action) (t : String) : Prop :=
  ∃ p o m, a = .advance p o ∧ t = m.task.taskId ∧
    (s.workers p = .starting m ∨ ∃ path, s.workers p = .recording m path)

theorem Sound.database (hs : s.Sound) (hpast : ∀ t, s.world.db.Past t → db.Past t) :
    ({ s with world := { s.world with db := db } } : System).Sound :=
  ⟨hs.entry, fun p => (hs.assured p).mono hpast,
    fun id task hentry => hpast _ (hs.acknowledged id task hentry)⟩

variable {task : DispatchTaskMessage}

theorem Sound.publish (hs : s.Sound) (hfree : s.world.stream id = none) :
    ({ s with world := { s.world with
        stream := update s.world.stream id (some ⟨task, .new⟩) } } : System).Sound := by
  refine ⟨fun q m hq => ?_, hs.assured, fun id₁ task₁ hentry => ?_⟩
  · obtain ⟨d, hentry⟩ := hs.entry q m hq
    refine ⟨d, ?_⟩
    show update s.world.stream id _ m.messageId = _
    rw [update_of_ne]
    · exact hentry
    · rintro rfl
      rw [hentry] at hfree
      cases hfree
  · have hentry' : update s.world.stream id (some ⟨task, .new⟩) id₁ =
        some ⟨task₁, .acknowledged⟩ := hentry
    by_cases hid : id₁ = id
    · rw [hid, update_self] at hentry'
      cases hentry'
    · rw [update_of_ne hid] at hentry'
      exact hs.acknowledged id₁ task₁ hentry'

theorem Sound.stop (hs : s.Sound) (hmessage : ∀ m, st.message = some m → (s.workers p).message = some m)
    (ha : st.Assured s.world.db) : ({ s with workers := update s.workers p st } : System).Sound := by
  refine ⟨fun q m hq => ?_, fun q => ?_, hs.acknowledged⟩
  · have hq' : (update s.workers p st q).message = some m := hq
    rw [update_apply] at hq'
    split at hq'
    · exact hs.entry p m (hmessage m hq')
    · exact hs.entry q m hq'
  · show WorkerState.Assured s.world.db (update s.workers p st q)
    rw [update_apply]
    split
    · exact ha
    · exact hs.assured q

theorem Sound.hand {n : ℕ} {d : Delivery} (hs : s.Sound) (hentry : s.world.stream id = some ⟨task, d⟩)
    (hmessage : ∀ m, st.message = some m → m.messageId = id ∧ m.task = task)
    (ha : st.Assured s.world.db) : (s.hand p id ⟨task, .pending n⟩ st).Sound := by
  have htasks : SameTasks s.world (s.hand p id ⟨task, .pending n⟩ st).world := by
    intro id₁ task₁ d₁ hentry₁
    show ∃ d, update s.world.stream id (some ⟨task, .pending n⟩) id₁ = some ⟨task₁, d⟩
    by_cases hid : id₁ = id
    · rw [hid, hentry] at hentry₁
      rw [hid, update_self, (Entry.mk.inj (Option.some.inj hentry₁)).1]
      exact ⟨.pending n, rfl⟩
    · rw [update_of_ne hid]
      exact ⟨d₁, hentry₁⟩
  refine ⟨fun q m hq => ?_, fun q => ?_, fun id₁ task₁ hentry₁ => ?_⟩
  · have hq' : (update s.workers p st q).message = some m := hq
    rw [update_apply] at hq'
    split at hq'
    · obtain ⟨rfl, rfl⟩ := hmessage m hq'
      exact htasks _ _ _ hentry
    · obtain ⟨d₁, hentry₁⟩ := hs.entry q m hq'
      exact htasks _ _ _ hentry₁
  · show WorkerState.Assured s.world.db (update s.workers p st q)
    rw [update_apply]
    split
    · exact ha
    · exact hs.assured q
  · have hentry' : update s.world.stream id (some ⟨task, .pending n⟩) id₁ =
        some ⟨task₁, .acknowledged⟩ := hentry₁
    by_cases hid : id₁ = id
    · rw [hid, update_self] at hentry'
      cases hentry'
    · rw [update_of_ne hid] at hentry'
      exact hs.acknowledged id₁ task₁ hentry'

theorem advance_sound (hs : s.Sound) (h : WorkerState.step config p o s.world (s.workers p) = some (st, w)) :
    ({ world := w, workers := update s.workers p st } : System).Sound := by
  have hm := WorkerState.step_moves h
  have hpast : ∀ t, s.world.db.Past t → w.db.Past t :=
    fun t => (WorkerState.moves_past hm (hs.assured p)).1
  have htasks : SameTasks s.world w := by
    obtain hsame | ⟨m, path, -, rfl⟩ := hm.stream
    · exact .of_eq hsame
    · exact .ack s.world m.messageId
  refine ⟨fun q m hq => ?_, fun q => ?_, fun id task hentry => ?_⟩
  · have hq' : (update s.workers p st q).message = some m := hq
    have hold : ∃ q', (s.workers q').message = some m := by
      rw [update_apply] at hq'
      split at hq'
      · exact ⟨p, hm.message hq'⟩
      · exact ⟨q, hq'⟩
    obtain ⟨q', hq'⟩ := hold
    obtain ⟨d, hentry⟩ := hs.entry q' m hq'
    exact htasks _ _ _ hentry
  · show WorkerState.Assured w.db (update s.workers p st q)
    rw [update_apply]
    split
    · exact WorkerState.step_assured h (hs.assured p)
    · exact (hs.assured q).mono hpast
  · have hentry' : w.stream id = some ⟨task, .acknowledged⟩ := hentry
    obtain hsame | ⟨m, path, hst, rfl⟩ := hm.stream
    · rw [hsame] at hentry'
      exact hpast _ (hs.acknowledged id task hentry')
    · obtain hsame | ⟨task₁, n, rfl, hpending, hacked⟩ := s.world.ack_stream m.messageId id
      · rw [hsame] at hentry'
        exact hpast _ (hs.acknowledged id task hentry')
      · -- the entry is the one of the worker's message, whose task is past
        obtain ⟨d, hmine⟩ := hs.entry p m (by rw [hst]; rfl)
        rw [hpending] at hmine
        obtain ⟨rfl, -⟩ := Entry.mk.inj (Option.some.inj hmine)
        rw [hacked] at hentry'
        obtain ⟨rfl, -⟩ := Entry.mk.inj (Option.some.inj hentry')
        have ha := hs.assured p
        rw [hst] at ha
        exact hpast _ ha

/-- A task gets past `PENDING` only by an action that writes its status. -/
theorem step_sound {s' : System} {a : Action} (hs : s.Sound) (h : step config s a = some s') :
    s'.Sound ∧ ∀ t, s'.world.db.Past t → s.world.db.Past t ∨ s.Writes a t := by
  cases a with
  | register task commits =>
    obtain ⟨d, db, hbegin, rfl⟩ := register_eq h
    exact ⟨hs.database fun t => (Db.begin_past hbegin).mpr,
      fun t hp => Or.inl ((Db.begin_past hbegin).mp hp)⟩
  | publish id task =>
    simp only [step] at h
    split at h
    · rename_i hfree
      cases h
      exact ⟨hs.publish hfree, fun t hp => Or.inl hp⟩
    · cases h
  | read p id =>
    obtain ⟨task, -, hentry, rfl⟩ := read_eq h
    refine ⟨hs.hand hentry (fun m hm => ?_) trivial, fun t hp => Or.inl hp⟩
    cases hm
    exact ⟨rfl, rfl⟩
  | claim p id counted =>
    obtain ⟨task, n, count, -, hentry, rfl⟩ := claim_eq h
    refine ⟨hs.hand hentry (fun m hm => ?_) trivial, fun t hp => Or.inl hp⟩
    cases hm
    exact ⟨rfl, rfl⟩
  | advance p o =>
    obtain ⟨⟨st, w⟩, hstep, rfl⟩ := Option.map_eq_some_iff.mp h
    refine ⟨advance_sound hs hstep, fun t hp => ?_⟩
    rcases (WorkerState.moves_past (WorkerState.step_moves hstep) (hs.assured p)).2 hp with
      hold | ⟨m, hid, hst⟩
    · exact .inl hold
    · exact .inr ⟨p, o, m, rfl, hid, hst⟩
  | fail p =>
    simp only [step] at h
    split at h
    · cases h
      exact ⟨hs.stop (WorkerState.Narrows.failed _).message (WorkerState.assured_failed _ _),
        fun t hp => Or.inl hp⟩
    · cases h
  | crash p =>
    simp only [step] at h
    split at h
    · cases h
      exact ⟨hs.stop (fun m hm => by cases hm) trivial, fun t hp => Or.inl hp⟩
    · cases h
  | expireLock key =>
    cases h
    exact ⟨⟨hs.entry, hs.assured, hs.acknowledged⟩, fun t hp => Or.inl hp⟩
  | decide t decision reason auditId now commits =>
    obtain ⟨db, hdb, rfl⟩ := decide_eq h
    exact ⟨hs.database fun t => (Db.decide_past hdb).mpr,
      fun t hp => Or.inl ((Db.decide_past hdb).mp hp)⟩

end System

/-! ### The calls beside the workers -/

namespace Db

theorem not_past (hfind : db.tasks.find t = some task)
    (h : task.status = .pending ∨ task.status = .submissionFailed) : ¬ db.Past t := by
  rintro ⟨task', hfind', hpending, hfailed⟩
  rw [hfind] at hfind'
  cases hfind'
  rcases h with h | h
  · exact hpending h
  · exact hfailed h

theorem setSubmissionPending_find (h : db.setSubmissionPending t = some db') (t' : String) :
    (t' ≠ t ∧ db'.tasks.find t' = db.tasks.find t') ∨
      (t' = t ∧ ∃ task', db'.tasks.find t' = some task' ∧ task'.status = .pending) := by
  obtain ⟨task, hfind, rfl⟩ := Option.map_eq_some_iff.mp h
  have hid : task.taskId = t := Table.find_key hfind
  by_cases ht : t' = t
  · refine .inr ⟨ht, { task with status := .pending, completedAt := none }, ?_, rfl⟩
    show (db.tasks.replace { task with status := .pending, completedAt := none }).find t' = _
    rw [Table.find_replace, if_pos (ht.trans hid.symm), ht, hfind]
    rfl
  · refine .inl ⟨ht, ?_⟩
    show (db.tasks.replace { task with status := .pending, completedAt := none }).find t' = _
    exact Table.find_replace_ne _ _ fun heq => ht (heq.trans hid)

theorem past_iff_of_write (hnot : ¬ db.Past t)
    (h : ∀ t', (t' ≠ t ∧ db'.tasks.find t' = db.tasks.find t') ∨ (t' = t ∧ ¬ db'.Past t')) (t' : String) :
    (db'.Past t' ↔ db.Past t') ∧ (db.Past t' → db'.tasks.find t' = db.tasks.find t') := by
  rcases h t' with ⟨-, hsame⟩ | ⟨rfl, hnot'⟩
  · exact ⟨⟨fun hp => hp.of_find hsame.symm, fun hp => hp.of_find hsame⟩, fun _ => hsame⟩
  · exact ⟨⟨fun hp => absurd hp hnot', fun hp => absurd hp hnot⟩, fun hp => absurd hp hnot⟩

theorem setSubmissionPending_past (h : db.setSubmissionPending t = some db') (hnot : ¬ db.Past t)
    (t' : String) : (db'.Past t' ↔ db.Past t') ∧ (db.Past t' → db'.tasks.find t' = db.tasks.find t') := by
  refine past_iff_of_write hnot (fun t₁ => ?_) t'
  rcases setSubmissionPending_find h t₁ with hsame | ⟨ht, task', hfind', hstatus⟩
  · exact .inl hsame
  · exact .inr ⟨ht, not_past hfind' (Or.inl hstatus)⟩

end Db

variable {a : RetryAction} {c : ℕ}

namespace Retries

variable {config : WorkerConfig}

/-- The workers are sound, and a task that a call has yet to reset is not past. -/
structure Kept (s : Retries) : Prop where
  system : s.system.Sound
  calls : ∀ c t, (s.calls c).resets = some t → ¬ s.system.world.db.Past t

variable {s : Retries} {st : RetryState}

theorem Kept.call (hs : s.Kept) (hsound : ({ s.system with world := w } : System).Sound)
    (hpast : ∀ t, w.db.Past t ↔ s.system.world.db.Past t)
    (hst : ∀ t, st.resets = some t → ¬ s.system.world.db.Past t) :
    ({ system := { s.system with world := w }
       calls := update s.calls c st } : Retries).Kept := by
  refine ⟨hsound, fun c' t ht hp => ?_⟩
  have hp' : s.system.world.db.Past t := (hpast t).mp hp
  have ht' : (update s.calls c st c').resets = some t := ht
  rw [update_apply] at ht'
  split at ht'
  · exact hst t ht' hp'
  · exact hs.calls c' t ht' hp'

/-- A step of a call leaves no task past that a call has yet to reset. -/
theorem call_kept {o : RetryOutcome} (hs : s.Kept)
    (h : RetryState.step o s.system.world (s.calls c) = some (st, w)) :
    ({ system := { s.system with world := w }
       calls := update s.calls c st } : Retries).Kept ∧
      ∀ t, s.system.world.db.Past t → w.db.tasks.find t = s.system.world.db.tasks.find t := by
  have hquiet : ∀ {st₁ : RetryState}, (∀ t, st₁.resets = some t → ¬ s.system.world.db.Past t) →
      some (st₁, s.system.world) = some (st, w) →
      ({ system := { s.system with world := w }
         calls := update s.calls c st } : Retries).Kept ∧
        ∀ t, s.system.world.db.Past t → w.db.tasks.find t = s.system.world.db.tasks.find t := by
    intro st₁ hst₁ heq
    cases heq
    exact ⟨hs.call hs.system (fun _ => Iff.rfl) hst₁, fun _ _ => rfl⟩
  have hover : ∀ {e : RetryError} (t : String), (RetryState.raised e).resets = some t →
      ¬ s.system.world.db.Past t := by
    intro e t ht
    cases ht
  have happend : ∀ {st₁ : RetryState} {task : DispatchTaskMessage},
      (∀ t, st₁.resets = some t → ¬ s.system.world.db.Past t) →
      (RetryState.publish s.system.world o.messageId task).map (fun w' => (st₁, w')) = some (st, w) →
      ({ system := { s.system with world := w }
         calls := update s.calls c st } : Retries).Kept ∧
        ∀ t, s.system.world.db.Past t → w.db.tasks.find t = s.system.world.db.tasks.find t := by
    intro st₁ task hst₁ heq
    obtain ⟨w', hpublish, hpair⟩ := Option.map_eq_some_iff.mp heq
    obtain ⟨rfl, rfl⟩ := Prod.mk.inj hpair
    unfold RetryState.publish at hpublish
    split at hpublish
    · rename_i hfree
      cases hpublish
      exact ⟨hs.call (hs.system.publish hfree) (fun _ => Iff.rfl) hst₁, fun _ _ => rfl⟩
    · cases hpublish
  cases hst : s.calls c with
  | idle =>
    rw [hst] at h
    cases h
  | accepted t status =>
    rw [hst] at h
    cases h
  | absent =>
    rw [hst] at h
    cases h
  | raised e =>
    rw [hst] at h
    cases h
  | looking r =>
    rw [hst] at h
    simp only [RetryState.step] at h
    split at h
    · exact hquiet hover h
    · refine hquiet (fun t ht => ?_) h
      cases hkey : s.system.world.db.byKey r.idempotencyKey with
      | none =>
        rw [hkey] at ht
        cases ht
      | some row =>
        rw [hkey] at ht
        unfold RetryState.afterLook at ht
        dsimp only at ht
        split at ht
        · cases ht
        split at ht
        · rename_i hfailed
          cases ht
          exact Db.not_past (Table.find_of_mem (List.mem_of_find?_eq_some hkey)) (Or.inr hfailed)
        · cases ht
  | republishing r row =>
    have hmine : ¬ s.system.world.db.Past row.taskId := by
      refine hs.calls c row.taskId ?_
      rw [hst]
      rfl
    rw [hst] at h
    simp only [RetryState.step] at h
    split at h
    · refine happend (fun t ht => ?_) h
      rw [← Option.some.inj ht]
      exact hmine
    · exact happend hover h
    · exact hquiet hover h
    · exact hquiet hover h
  | resetting r t =>
    have hmine : ¬ s.system.world.db.Past t := by
      refine hs.calls c t ?_
      rw [hst]
      rfl
    rw [hst] at h
    simp only [RetryState.step] at h
    split at h
    · exact hquiet hover h
    · split at h
      · exact hquiet hover h
      · rename_i db hreset
        cases h
        have hpast := Db.setSubmissionPending_past hreset hmine
        refine ⟨hs.call (hs.system.database fun t' => (hpast t').1.mpr) (fun t' => (hpast t').1)
          fun t' ht' => ?_, fun t' => (hpast t').2⟩
        cases ht'
  | answering r t =>
    rw [hst] at h
    simp only [RetryState.step] at h
    split at h
    · exact hquiet hover h
    · split at h
      · exact hquiet hover h
      · refine hquiet (fun t ht => ?_) h
        cases ht

/-- A timely step of a call or of a worker finds no task past that a call has yet to reset. -/
theorem step_kept {s' : Retries} (hs : s.Kept) (hok : s.Timely a)
    (h : step config s a = some s') : s'.Kept := by
  cases a with
  | work a =>
    obtain ⟨system, hstep, rfl⟩ := Option.map_eq_some_iff.mp h
    obtain ⟨hsound, hpast⟩ := System.step_sound hs.system hstep
    refine ⟨hsound, fun c t ht hp => ?_⟩
    rcases hpast t hp with hold | ⟨p, o, m, rfl, rfl, hst⟩
    · exact hs.calls c t ht hold
    · exact hok m hst c ht
  | submit c r =>
    simp only [step] at h
    split at h
    · cases h
      refine hs.call hs.system (fun _ => Iff.rfl) fun t ht => ?_
      cases ht
    · cases h
  | advance c o =>
    obtain ⟨⟨st, w⟩, hstep, rfl⟩ := Option.map_eq_some_iff.mp h
    exact (call_kept hs hstep).1
  | interrupt c =>
    simp only [step] at h
    split at h
    · cases h
      refine hs.call hs.system (fun _ => Iff.rfl) fun t ht => ?_
      cases ht
    · cases h
  | giveUp t now =>
    simp only [step] at h
    split at h
    · rename_i hstatus
      obtain ⟨db, hdb, rfl⟩ := Option.map_eq_some_iff.mp h
      have hmark := toOption_eq_some.mp hdb
      have hnot : ¬ s.system.world.db.Past t := by
        obtain ⟨task, hfind, hpending⟩ := Option.map_eq_some_iff.mp hstatus
        exact Db.not_past hfind (Or.inl hpending)
      have hpast : ∀ t', db.Past t' ↔ s.system.world.db.Past t' := by
        refine fun t' => (Db.past_iff_of_write hnot (fun t₁ => ?_) t').1
        rcases Db.setStatus_find hmark t₁ with hsame | ⟨-, task', ht, -, hfind', -, hfailed⟩
        · exact .inl hsame
        · exact .inr ⟨ht, Db.not_past hfind' (Or.inr hfailed)⟩
      exact ⟨hs.system.database fun t' => (hpast t').mpr,
        fun c t' ht' hp => hs.calls c t' ht' ((hpast t').mp hp)⟩
    · cases h

/-! ### Whole runs -/

/-- Where runs begin: nobody works, no call is made, and what is acknowledged is past. -/
structure Initial (s : Retries) : Prop where
  system : s.system.Initial
  calls : ∀ c, s.calls c = .idle
  acknowledged : ∀ id task, s.system.world.stream id = some ⟨task, .acknowledged⟩ →
    s.system.world.db.Past task.taskId

theorem Initial.kept (h : s.Initial) : s.Kept := by
  refine ⟨⟨fun p m hm => ?_, fun p => ?_, h.acknowledged⟩, fun c t ht => ?_⟩
  · rw [h.system p] at hm
    cases hm
  · rw [h.system p]
    trivial
  · rw [h.calls c] at ht
    cases ht

/-- **A retry never rewinds a task.**  In every run in which no worker writes the status of a task while
a call that found it `SUBMISSION_FAILED` has yet to reset it: no step of a call changes the row of a
task that a worker has written, and no acknowledged message leaves its task `PENDING`. -/
theorem retry_never_rewinds {s₀ s : Retries} {run : List RetryAction} (h₀ : s₀.Initial)
    (hmeets : Meets (step config) Timely s₀ run) (hrun : exec (step config) s₀ run = some s) :
    (∀ c o s', step config s (.advance c o) = some s' → ∀ t, s.system.world.db.Past t →
      s'.system.world.db.tasks.find t = s.system.world.db.tasks.find t) ∧
    ∀ id task, s.system.world.stream id = some ⟨task, .acknowledged⟩ →
      s.system.status task.taskId ≠ some .pending := by
  have hs : s.Kept := exec_invariant
    (fun (s₁ : Retries) a s₂ hs hok hstep => step_kept hs hok hstep) hmeets hrun h₀.kept
  refine ⟨fun c o s' hstep t hp => ?_, fun id task hentry hpending => ?_⟩
  · obtain ⟨⟨st, w⟩, hcall, rfl⟩ := Option.map_eq_some_iff.mp hstep
    exact (call_kept hs hcall).2 t hp
  · obtain ⟨row, hfind, hstatus⟩ := Option.map_eq_some_iff.mp hpending
    exact Db.not_past hfind (Or.inl hstatus) (hs.system.acknowledged id task hentry)

/-! ### A call that is in time, and one that is late -/

/-- No rows, no messages, no workers and no calls. -/
def empty : Retries := ⟨System.empty, fun _ => .idle⟩

theorem empty_initial : empty.Initial :=
  ⟨fun _ => rfl, fun _ => rfl, fun _ _ h => (by cases h)⟩

/-- The task of the example was given up, and call 0 has appended its message again. -/
def republished : List RetryAction :=
  [.work (.register System.exampleTask true), .giveUp "TASK-1" 5,
    .submit 0 ⟨1, "key-1", "ROAD_BLOCKED"⟩, .advance 0 ⟨"1-0", .appended, false, true⟩,
    .advance 0 ⟨"1-0", .appended, false, true⟩]

/-- Worker 0 takes the message and approves the task. -/
def approval : List RetryAction :=
  [.work (.read 0 "1-0")] ++ List.replicate 5 (.work (.advance 0 (System.smooth .failed))) ++
    [.work (.advance 0 (System.smooth (.dispatch 7 .keptRoute))),
      .work (.advance 0 (System.smooth (.audit 9 .approved "checked"))),
      .work (.advance 0 (System.smooth (.finished ⟨none, false, some "APPROVED"⟩)))] ++
    List.replicate 6 (.work (.advance 0 (System.smooth .failed)))

/-- Call 0 resets the task. -/
def reset : RetryAction := .advance 0 ⟨"1-0", .appended, false, true⟩

/-- What is checked of a step beside call 0. -/
def timely (s : Retries) : RetryAction → Bool
  | .work (.advance p _) =>
    match s.system.workers p with
    | .starting m | .recording m _ => (s.calls 0).resets ≠ some m.task.taskId
    | _ => true
  | .work _ | .giveUp _ _ => true
  | .submit c _ | .advance c _ | .interrupt c => c = 0

def One (s : Retries) : Prop := ∀ c, c ≠ 0 → s.calls c = .idle

theorem step_one {s' : Retries} (hs : s.One) (ha : s.timely a = true)
    (h : step config s a = some s') : s'.One := by
  have hupdate : ∀ {c : ℕ} {st : RetryState} {system : System}, c = 0 →
      ({ system := system, calls := update s.calls c st } : Retries).One := by
    rintro c st system rfl c' hc'
    show update s.calls 0 st c' = .idle
    rw [update_of_ne hc']
    exact hs c' hc'
  cases a with
  | work a =>
    obtain ⟨system, -, rfl⟩ := Option.map_eq_some_iff.mp h
    exact hs
  | submit c r =>
    simp only [step] at h
    split at h
    · cases h
      exact hupdate (of_decide_eq_true ha)
    · cases h
  | advance c o =>
    obtain ⟨⟨st, w⟩, -, rfl⟩ := Option.map_eq_some_iff.mp h
    exact hupdate (of_decide_eq_true ha)
  | interrupt c =>
    simp only [step] at h
    split at h
    · cases h
      exact hupdate (of_decide_eq_true ha)
    · cases h
  | giveUp t now =>
    simp only [step] at h
    split at h
    · obtain ⟨db, -, rfl⟩ := Option.map_eq_some_iff.mp h
      exact hs
    · cases h

theorem timely_of_check (hs : s.One) (ha : s.timely a = true) : s.Timely a := by
  cases a with
  | work a =>
    cases a with
    | advance p o =>
      intro m hst c hc
      have hzero : (s.calls 0).resets ≠ some m.task.taskId := by
        rcases hst with hst | ⟨path, hst⟩
        · simp only [timely, hst] at ha
          exact of_decide_eq_true ha
        · simp only [timely, hst] at ha
          exact of_decide_eq_true ha
      by_cases hcase : c = 0
      · rw [hcase] at hc
        exact hzero hc
      · rw [hs c hcase] at hc
        cases hc
    | _ => trivial
  | _ => trivial

/-- The call resets the task before the worker writes it: the message is acknowledged, and the task is
not `PENDING`. -/
theorem retry_never_rewinds_in_time : ∃ s,
    exec (step System.exampleConfig) empty (republished ++ [reset] ++ approval) = some s ∧
      s.system.world.stream "1-0" = some ⟨System.exampleTask, .acknowledged⟩ ∧
      s.system.status "TASK-1" ≠ some .pending := by
  have hx : (exec (step System.exampleConfig) empty (republished ++ [reset] ++ approval)).map
      (fun s => decide (s.system.world.stream "1-0" = some ⟨System.exampleTask, .acknowledged⟩)) =
        some true := by
    decide +kernel
  have hok : Meets (step System.exampleConfig) (fun s a => s.timely a = true) empty
      (republished ++ [reset] ++ approval) := by
    decide +kernel
  obtain ⟨s, hs, hx⟩ := Option.map_eq_some_iff.mp hx
  have hentry := of_decide_eq_true hx
  have hmeets : Meets (step System.exampleConfig) Timely empty (republished ++ [reset] ++ approval) :=
    hok.mono_of_invariant (I := One) (fun _ _ _ hs ha hstep => step_one hs ha hstep)
      (fun _ _ hs ha => timely_of_check hs ha) fun _ _ => rfl
  exact ⟨s, hs, hentry, (retry_never_rewinds empty_initial hmeets hs).2 "1-0" System.exampleTask hentry⟩

/-- **A worker that is faster than the call loses its approval**: the message is acknowledged, and the
reset leaves the task `PENDING`. -/
theorem approval_rewound :
    ¬ ∀ (run : List RetryAction) (s : Retries), exec (step System.exampleConfig) empty run = some s →
      ∀ id task, s.system.world.stream id = some ⟨task, .acknowledged⟩ →
        s.system.status task.taskId ≠ some .pending := by
  intro hpast
  have hx : (exec (step System.exampleConfig) empty (republished ++ approval ++ [reset])).map
      (fun s => decide (s.system.world.stream "1-0" = some ⟨System.exampleTask, .acknowledged⟩ ∧
        s.system.status "TASK-1" = some .pending)) = some true := by
    decide +kernel
  obtain ⟨s, hs, hx⟩ := Option.map_eq_some_iff.mp hx
  obtain ⟨hentry, hpending⟩ := of_decide_eq_true hx
  exact hpast _ s hs "1-0" System.exampleTask hentry hpending

end Retries

end CountyFlow.Worker
