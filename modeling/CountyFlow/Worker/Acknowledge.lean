import CountyFlow.Worker.Outcomes

/-!
# Acknowledgements

A message leaves the pending list when it is acknowledged; by then its outcome should be durable, in
the ledger and on the thread.  `_mark_runtime_terminal` answers with a snapshot, with `None` when there
is no thread and with `False` when the repository raised, and every caller takes only `None` for a
failure.
-/

namespace CountyFlow.Worker

open CountyFlow.Lib CountyFlow.Runtime Function

/-! ### Threads -/

theorem key_ne_terminal {k a b : String} (h : k.toList.take 2 ≠ ['t', 'e'])
    (hlen : 2 ≤ k.toList.length) : k ++ a ≠ "terminal:" ++ b := by
  intro heq
  have hlist := congrArg (fun s : String => s.toList.take 2) heq
  simp only [String.toList_append] at hlist
  rw [List.take_append_of_le_length hlen] at hlist
  exact h hlist

/-- A thread with a terminal event is `TERMINAL`. -/
def Honest (r : ThreadRecord) : Prop :=
  ∀ e ∈ r.events, ∀ status, e.eventKey = "terminal:" ++ status → r.row.status = .terminal

theorem Honest.create (taskId threadId : String) : Honest (ThreadRecord.create taskId threadId) := by
  intro e he status hkey
  obtain rfl := List.mem_singleton.mp he
  exact absurd hkey (key_ne_terminal (k := "thread:") (a := "created") (by decide) (by decide))

variable {r r' : ThreadRecord}

theorem Honest.append {e : RuntimeThreadEvent} (h : Honest r) (hevents : r'.events = r.events ++ [e])
    (hkey : ∀ status, e.eventKey ≠ "terminal:" ++ status)
    (hstatus : r.row.status = .terminal → r'.row.status = .terminal) : Honest r' := by
  intro e' he' status hkey'
  rw [hevents] at he'
  rcases List.mem_append.mp he' with he' | he'
  · exact hstatus (h e' he' status hkey')
  · rw [List.mem_singleton.mp he'] at hkey'
    exact absurd hkey' (hkey status)

variable {commits : Bool}

theorem promote_honest {command : PromoteCheckpoint} (h : r.promoteCheckpoint command commits = .ok r')
    (hkey : ∀ status, command.eventKey ≠ "terminal:" ++ status) :
    (r.row.status = .terminal → r'.row.status = .terminal) ∧ (Honest r → Honest r') := by
  unfold ThreadRecord.promoteCheckpoint at h
  split at h
  · cases h
    exact ⟨id, id⟩
  · split at h
    · cases h
    · rename_i hlive
      split at h
      · cases h
      · split at h
        · cases h
        · cases h
          have hstatus : r.row.status = .terminal → (r.promoted command).row.status = .terminal :=
            fun ht => absurd ht hlive
          exact ⟨hstatus, fun hr => hr.append rfl hkey hstatus⟩

theorem op_honest {consumer : String} {op : ThreadOp} (h : op.run consumer commits r = .ok r') :
    (r.row.status = .terminal → r'.row.status = .terminal) ∧ (Honest r → Honest r') := by
  cases op with
  | claimNextNode c v n =>
    obtain ⟨hb, rfl⟩ := ThreadRecord.claimBoundary_ok h
    obtain ⟨hstable, -⟩ := ThreadRecord.atBoundary_iff.mp hb
    have hlive : r.row.status ≠ .terminal := by
      rw [hstable]
      decide
    refine ⟨fun ht => absurd ht hlive, fun hr e he status hkey => ?_⟩
    exact absurd (hr e he status hkey) hlive
  | promote command =>
    exact promote_honest h fun status => key_ne_terminal (by decide) (by decide)
  | reconcile command =>
    exact promote_honest h fun status => key_ne_terminal (by decide) (by decide)
  | resumed key =>
    have h' : r.markResumed ("resume:" ++ key) consumer commits = .ok r' := h
    unfold ThreadRecord.markResumed at h'
    split at h'
    · cases h'
      exact ⟨id, id⟩
    · split at h'
      · cases h'
        exact ⟨id, id⟩
      · split at h'
        · cases h'
        · rename_i hlive _ _
          cases h'
          exact ⟨id, fun hr => hr.append rfl
            (fun status => key_ne_terminal (by decide) (by decide)) id⟩

variable {node code : Option String}

theorem mark_honest {status consumer : String} {now : ℕ} (hr : Honest r)
    (h : r.markTerminal ("terminal:" ++ status) consumer node code now commits = .ok r') :
    r'.row.status = .terminal ∧ Honest r' := by
  unfold ThreadRecord.markTerminal at h
  split at h
  · rename_i hevent
    cases h
    obtain ⟨e, he, hkey⟩ := List.any_eq_true.mp hevent
    exact ⟨hr e he status (beq_iff_eq.mp hkey), hr⟩
  · split at h
    · cases h
    · cases h
      exact ⟨rfl, fun _ _ _ _ => rfl⟩

/-! ### The database -/

variable {db db' : Db} {t : String} {d : IdempotencyDecision}

namespace Db

/-- The ledger shows a terminal status. -/
def Recorded (db : Db) (t : String) : Prop := ∃ status, db.status t = some status ∧ status.terminal = true

/-- The thread is `TERMINAL`. -/
def Terminated (db : Db) (t : String) : Prop := db.threadStatus t = some .terminal

theorem recorded_iff : db.Recorded t ↔ ∃ task, db.tasks.find t = some task ∧ task.status.terminal = true := by
  constructor
  · rintro ⟨status, hstatus, hterm⟩
    obtain ⟨task, hfind, rfl⟩ := Option.map_eq_some_iff.mp hstatus
    exact ⟨task, hfind, hterm⟩
  · rintro ⟨task, hfind, hterm⟩
    exact ⟨task.status, status_eq hfind, hterm⟩

theorem terminated_iff : db.Terminated t ↔ ∃ r, db.threads t = some r ∧ r.row.status = .terminal :=
  Option.map_eq_some_iff

/-- What no step undoes: threads exist, stay `TERMINAL` and honest. -/
structure Continues (db db' : Db) : Prop where
  exist : ∀ t, db.threads t ≠ none → db'.threads t ≠ none
  terminated : ∀ t, db.Terminated t → db'.Terminated t
  honest : (∀ t r, db.threads t = some r → Honest r) → ∀ t r, db'.threads t = some r → Honest r

theorem Continues.of_threads (h : db'.threads = db.threads) : Continues db db' := by
  refine ⟨fun t ht => ?_, fun t ht => ?_, fun hh t r hr => ?_⟩
  · rw [h]
    exact ht
  · unfold Terminated threadStatus at ht ⊢
    rw [h]
    exact ht
  · rw [h] at hr
    exact hh t r hr

theorem continues_update {t₀ : String} (hr : db.threads t₀ = some r)
    (hdb : db'.threads = update db.threads t₀ (some r'))
    (hstatus : r.row.status = .terminal → r'.row.status = .terminal) (hh : Honest r → Honest r') :
    Continues db db' := by
  refine ⟨fun t ht => ?_, fun t ht => ?_, fun hall t r₁ hr₁ => ?_⟩
  · rw [hdb, update_apply]
    split
    · exact Option.some_ne_none r'
    · exact ht
  · obtain ⟨r₁, hr₁, hterm⟩ := terminated_iff.mp ht
    refine terminated_iff.mpr ?_
    rw [hdb, update_apply]
    split
    · rename_i heq
      rw [heq, hr] at hr₁
      cases hr₁
      exact ⟨r', rfl, hstatus hterm⟩
    · exact ⟨r₁, hr₁, hterm⟩
  · rw [hdb, update_apply] at hr₁
    split at hr₁
    · cases hr₁
      exact hh (hall t₀ r hr)
    · exact hall t r₁ hr₁

theorem begin_continues {taskId key : String} {orderId : ℤ}
    (h : db.begin taskId orderId key commits = .ok (d, db')) : Continues db db' := by
  obtain ⟨task, rfl, -⟩ | ⟨tasks, threadId, -, -, hnone, -, rfl⟩ := begin_ok h
  · exact .of_threads rfl
  · refine ⟨fun t ht => ?_, fun t ht => ?_, fun hall t r hr => ?_⟩
    · show update db.threads taskId _ t ≠ none
      rw [update_apply]
      split
      · exact Option.some_ne_none _
      · exact ht
    · obtain ⟨r, hr, hterm⟩ := terminated_iff.mp ht
      refine terminated_iff.mpr ⟨r, ?_, hterm⟩
      show update db.threads taskId _ t = some r
      rw [update_of_ne]
      · exact hr
      · rintro rfl
        rw [hr] at hnone
        cases hnone
    · have hr' : update db.threads taskId (some (ThreadRecord.create taskId threadId)) t =
          some r := hr
      rw [update_apply] at hr'
      split at hr'
      · rw [← Option.some.inj hr']
        exact .create taskId threadId
      · exact hall t r hr'

end Db

variable {p : ℕ} {w w' : World} {st st' : WorkerState}

theorem WorkerState.Moves.continues {config : WorkerConfig} (h : Moves config p w st st' w')
    (hh : ∀ t r, w.db.threads t = some r → Honest r) : w.db.Continues w'.db := by
  cases h with
  | released hn hnone =>
    unfold World.release
    split <;> exact .of_threads rfl
  | began hbegin => exact Db.begin_continues hbegin
  | started hmark =>
    obtain ⟨task, task', -, -, -, -, rfl⟩ := Db.setStatus_ok hmark
    exact .of_threads rfl
  | recorded hmark =>
    obtain ⟨task, task', -, -, -, -, rfl⟩ := Db.setStatus_ok hmark
    exact .of_threads rfl
  | steered hst hr hop =>
    obtain ⟨hstatus, hhonest⟩ := op_honest hop
    exact Db.continues_update hr rfl hstatus hhonest
  | terminated hr hterm =>
    obtain ⟨hstatus, hhonest⟩ := mark_honest (hh _ _ hr) hterm
    exact Db.continues_update hr rfl (fun _ => hstatus) fun _ => hhonest
  | proposed => exact .of_threads (Db.executeDispatch_threads _ _ _ _)
  | audited => exact .of_threads (Db.persistAudit_threads _ _ _ _ _)
  | acked hn =>
    unfold World.ack
    split <;> exact .of_threads rfl
  | _ => exact .of_threads rfl

/-! ### Workers -/

/-- The path found the outcome in the ledger. -/
def Path.replayed : Path → Bool
  | .replay _ => true
  | _ => false

variable {m : StreamMessage} {path : Path} {o : Outcome}

namespace WorkerState

/-- The task whose outcome the worker takes for recorded. -/
def settled : WorkerState → Option String
  | .looking m path | .terminating m path _ => if path.replayed then some m.task.taskId else none
  | .publishing m _ | .handling m _ | .appending m _ | .acking m _ => some m.task.taskId
  | _ => none

/-- What a worker on its way to an acknowledgement counts on. -/
def Durable (db : Db) : WorkerState → Prop
  | .looking m path => path.status.terminal = true ∧
      (path.replayed = true → db.Recorded m.task.taskId)
  | .terminating m path _ => path.status.terminal = true ∧
      (path.replayed = true → db.Recorded m.task.taskId) ∧ db.threads m.task.taskId ≠ none
  | .recording m path => path.status.terminal = true ∧ db.Terminated m.task.taskId
  | .publishing m _ | .handling m _ | .appending m _ | .acking m _ =>
    db.Recorded m.task.taskId ∧ db.Terminated m.task.taskId
  | _ => True

theorem Durable.mono (h : Durable db st) (hc : db.Continues db')
    (hrec : ∀ t, st.settled = some t → db.Recorded t → db'.Recorded t) : Durable db' st := by
  have hif : ∀ (path : Path) (t : String), path.replayed = true →
      (if path.replayed then some t else none) = some t := fun path t hpath => if_pos hpath
  cases st with
  | looking m path =>
    obtain ⟨hterm, hreplay⟩ := h
    exact ⟨hterm, fun hpath => hrec _ (hif path _ hpath) (hreplay hpath)⟩
  | terminating m path node =>
    obtain ⟨hterm, hreplay, hthread⟩ := h
    exact ⟨hterm, fun hpath => hrec _ (hif path _ hpath) (hreplay hpath), hc.exist _ hthread⟩
  | recording m path => exact ⟨h.1, hc.terminated _ h.2⟩
  | publishing m path => exact ⟨hrec _ rfl h.1, hc.terminated _ h.2⟩
  | handling m path => exact ⟨hrec _ rfl h.1, hc.terminated _ h.2⟩
  | appending m n => exact ⟨hrec _ rfl h.1, hc.terminated _ h.2⟩
  | acking m path => exact ⟨hrec _ rfl h.1, hc.terminated _ h.2⟩
  | _ => trivial

theorem durable_abortPath (db : Db) (m : StreamMessage) (path : Path) : Durable db (abortPath m path) := by
  cases path <;> trivial

theorem durable_terminalFailure (db : Db) (m : StreamMessage) (path : Path) :
    Durable db (terminalFailure m path) := by
  cases path <;> trivial

theorem durable_failed (db : Db) (st : WorkerState) : Durable db st.failed := by
  cases st with
  | looking m path => exact durable_abortPath db m path
  | terminating m path node => exact durable_abortPath db m path
  | recording m path => exact durable_abortPath db m path
  | publishing m path => exact durable_abortPath db m path
  | handling m path => exact durable_abortPath db m path
  | acking m path => exact durable_abortPath db m path
  | _ => trivial

theorem durable_afterTerminal (hterm : path.status.terminal = true)
    (hreplay : path.replayed = true → db.Recorded m.task.taskId)
    (hthread : db.Terminated m.task.taskId) : Durable db (afterTerminal m path) := by
  cases path with
  | replay status => exact ⟨hreplay rfl, hthread⟩
  | _ => exact ⟨hterm, hthread⟩

theorem durable_afterRecord (hrec : db.Recorded m.task.taskId) (hthread : db.Terminated m.task.taskId) :
    Durable db (afterRecord m path) := by
  cases path <;> exact ⟨hrec, hthread⟩

theorem durable_afterBegin
    (h : db.begin m.task.taskId m.task.orderId m.task.idempotencyKey commits = .ok (d, db')) :
    Durable db' (afterBegin m d) := by
  obtain ⟨task, rfl, hfind, -, rfl⟩ | ⟨tasks, threadId, hnew, -, -, -, rfl⟩ := Db.begin_ok h
  · rw [System.afterBegin_decision]
    split
    · rename_i hterm
      exact ⟨hterm, fun _ => Db.recorded_iff.mpr ⟨task, hfind, hterm⟩⟩
    · trivial
  · unfold afterBegin
    rw [hnew]
    trivial

theorem durable_afterReconcile (db : Db) (m : StreamMessage) (r : ExecutionReconciliation) :
    Durable db (afterReconcile m r) := by
  unfold afterReconcile
  split
  · rename_i hterminal
    refine ⟨?_, fun hpath => by cases hpath⟩
    have hcases := of_decide_eq_true hterminal
    rcases hcases with hr | hr
    · rw [hr]
      rfl
    · rw [hr]
      rfl
  · trivial

theorem terminalState_terminal {final : FinalState} {status : TaskStatus} {review : Bool}
    (h : terminalState final = (some status, review, code)) : status.terminal = true := by
  unfold terminalState at h
  split at h
  · cases h
  · split at h
    · cases h
      rfl
    · split at h
      · cases h
        rfl
      · cases h

theorem durable_afterGraph (db : Db) (m : StreamMessage) (state : IdempotencyState) (final : FinalState)
    (raises : Bool) (thread : Option ThreadRecord) : Durable db (afterGraph m state final raises thread) := by
  unfold afterGraph
  split
  · rename_i status review code hfinal
    exact ⟨terminalState_terminal hfinal, fun hpath => by cases hpath⟩
  · split
    · trivial
    · split <;> trivial

theorem durable_graphStep (config : WorkerConfig) (m : StreamMessage) (state : IdempotencyState) (o : Outcome)
    (w : World) : Durable (graphStep config m state o w).2.db (graphStep config m state o w).1 := by
  unfold graphStep
  split
  · split
    · trivial
    · split <;> trivial
  · trivial
  · trivial
  · trivial
  · exact durable_afterGraph _ m state _ _ _

variable {config : WorkerConfig}

theorem durable_terminate (hd : Durable w.db (.terminating m path node))
    (hh : ∀ t r, w.db.threads t = some r → Honest r)
    (hraises : o.raises = true → w.db.Terminated m.task.taskId) :
    Durable (terminate config m path node o w).2.db (terminate config m path node o w).1 := by
  obtain ⟨hterm, hreplay, hthread⟩ := hd
  unfold terminate
  split
  · rename_i hnone
    exact absurd hnone hthread
  · rename_i r hr
    split
    · rename_i e herror
      refine durable_afterTerminal hterm hreplay (hraises ?_)
      by_contra hsmooth
      rw [Bool.eq_false_iff.mpr hsmooth] at herror
      unfold ThreadRecord.markTerminal at herror
      split at herror <;> cases herror
    · rename_i r' hok
      refine durable_afterTerminal hterm hreplay ?_
      refine Db.terminated_iff.mpr ⟨r', ?_, (mark_honest (hh _ _ hr) hok).1⟩
      exact update_self _ _ _

/-- What a worker counts on before an acknowledgement still holds after its step. -/
theorem step_durable (h : step config p o w st = some (st', w')) (hd : Durable w.db st)
    (hh : ∀ t r, w.db.threads t = some r → Honest r)
    (hraises : ∀ m path node, st = .terminating m path node → o.raises = true →
      w.db.Terminated m.task.taskId) : Durable w'.db st' := by
  cases st with
  | idle => cases h
  | done result => cases h
  | recovering m =>
    cases h
    unfold recover
    split
    · trivial
    · split <;> trivial
  | probing m n =>
    simp only [step] at h
    split at h
    · cases h
      trivial
    · split at h <;> (cases h; trivial)
  | probed m n =>
    simp only [step] at h
    split at h
    · cases h
      trivial
    · cases h
      exact ⟨rfl, fun hpath => by cases hpath⟩
  | acquiring m =>
    simp only [step] at h
    split at h
    · cases h
      trivial
    · split at h <;> (cases h; trivial)
  | beginning m =>
    simp only [step] at h
    split at h
    · cases h
      trivial
    · split at h
      · cases h
        trivial
      · rename_i d db hbegin
        cases h
        exact durable_afterBegin hbegin
  | reconciling m =>
    simp only [step] at h
    split at h
    · cases h
      trivial
    · cases h
      exact durable_afterReconcile _ m _
  | starting m =>
    simp only [step] at h
    split at h <;> (cases h; trivial)
  | loading m state =>
    simp only [step] at h
    split at h <;> (cases h; trivial)
  | mending m state =>
    simp only [step] at h
    split at h
    · split at h <;> (cases h; trivial)
    · split at h <;> (cases h; trivial)
  | running m state =>
    obtain ⟨rfl, rfl⟩ := Prod.mk.inj (Option.some.inj h)
    exact durable_graphStep config m state o w
  | looking m path =>
    obtain ⟨hterm, hreplay⟩ := hd
    simp only [step] at h
    split at h
    · cases h
      exact durable_abortPath _ m path
    · split at h
      · cases h
        exact durable_terminalFailure _ m path
      · rename_i r hr
        cases h
        exact ⟨hterm, hreplay, by rw [hr]; exact Option.some_ne_none r⟩
  | terminating m path node =>
    obtain ⟨rfl, rfl⟩ := Prod.mk.inj (Option.some.inj h)
    exact durable_terminate hd hh (hraises m path node rfl)
  | recording m path =>
    obtain ⟨hterm, hthread⟩ := hd
    simp only [step] at h
    split at h
    · cases h
      exact durable_abortPath _ m path
    · rename_i db hmark
      cases h
      have hc : w.db.Continues db := by
        obtain ⟨task, task', -, -, -, -, rfl⟩ := Db.setStatus_ok hmark
        exact .of_threads rfl
      obtain ⟨hne, -⟩ | ⟨task, task', -, -, hfind', -, hstatus⟩ :=
        Db.setStatus_find hmark m.task.taskId
      · exact absurd rfl hne
      · have hrec : db.Recorded m.task.taskId :=
          Db.recorded_iff.mpr ⟨task', hfind', by rw [hstatus]; exact hterm⟩
        exact durable_afterRecord hrec (hc.terminated _ hthread)
  | publishing m path =>
    simp only [step] at h
    split at h
    · cases h
      trivial
    · cases h
      exact hd
  | handling m path =>
    simp only [step] at h
    split at h
    · cases h
      trivial
    · cases h
      exact hd
  | appending m n =>
    simp only [step] at h
    split at h
    · cases h
      trivial
    · cases h
      exact hd
  | acking m path =>
    simp only [step] at h
    split at h
    · cases h
      exact durable_abortPath _ m path
    · cases path <;> (cases h; trivial)
  | releasing m result =>
    simp only [step] at h
    split at h <;> (cases h; trivial)

theorem Moves.message (h : Moves config p w st st' w') (hm : st'.message = some m) : st.message = some m := by
  cases h with
  | quiet hn => exact hn.message m hm
  | released hn hnone => exact hn.message m hm
  | @began m₁ d db hbegin =>
    unfold afterBegin at hm
    split at hm <;> exact hm
  | @recorded m₁ path now commits db hmark => cases path <;> exact hm
  | @steered m₁ st state op commits r r' hst hr hop =>
    rcases hst with rfl | rfl
    · exact hm
    · exact hm
  | @terminated m₁ path node now commits r r' hr hterm =>
    exact (Narrows.afterTerminal m₁ path node).message m hm
  | acked hn => exact hn.message m hm
  | _ => exact hm

theorem Moves.stream (h : Moves config p w st st' w') :
    w'.stream = w.stream ∨ ∃ m path, st = .acking m path ∧ w' = (w.ack m.messageId).2 := by
  cases h with
  | released hn hnone =>
    refine .inl ?_
    unfold World.release
    split <;> rfl
  | @acked m path st' hn => exact .inr ⟨m, path, rfl, rfl⟩
  | _ => exact .inl rfl

end WorkerState

theorem World.ack_stream (w : World) (messageId id : String) :
    (w.ack messageId).2.stream id = w.stream id ∨
      ∃ task n, id = messageId ∧ w.stream id = some ⟨task, .pending n⟩ ∧
        (w.ack messageId).2.stream id = some ⟨task, .acknowledged⟩ := by
  unfold World.ack
  split
  · rename_i task n hentry
    by_cases hid : id = messageId
    · subst hid
      exact .inr ⟨task, n, rfl, hentry, update_self _ _ _⟩
    · exact .inl (update_of_ne hid _ _)
  · exact .inl rfl

variable {a : Action} {s s' : System} {id : String} {task : DispatchTaskMessage}

namespace System

variable {config : WorkerConfig}

/-- `mark_terminal` of the thread repository does not raise, unless the thread is `TERMINAL` already;
no task with a terminal status is set to `PROCESSING`; and no task that a worker takes for recorded
is rejected. -/
def Persists (s : System) : Action → Prop
  | .advance p o =>
    (∀ m path node, s.workers p = .terminating m path node → o.raises = true →
      s.world.db.Terminated m.task.taskId) ∧
    ∀ m, s.workers p = .starting m → ¬ s.world.db.Recorded m.task.taskId
  | .decide t .reject _ _ _ _ => ∀ q, (s.workers q).settled ≠ some t
  | _ => True

/-- What the workers count on, and which entries they work on. -/
structure Tracked (s : System) : Prop where
  entry : ∀ p m, (s.workers p).message = some m → ∃ d, s.world.stream m.messageId = some ⟨m.task, d⟩
  durable : ∀ p, (s.workers p).Durable s.world.db
  honest : ∀ t r, s.world.db.threads t = some r → Honest r

/-- The entries of the stream are as they were, but for their delivery. -/
def SameTasks (w w' : World) : Prop :=
  ∀ id task d, w.stream id = some ⟨task, d⟩ → ∃ d', w'.stream id = some ⟨task, d'⟩

theorem SameTasks.of_eq (h : w'.stream = w.stream) : SameTasks w w' := by
  intro id task d hentry
  rw [h]
  exact ⟨d, hentry⟩

theorem SameTasks.ack (w : World) (messageId : String) : SameTasks w (w.ack messageId).2 := by
  intro id task d hentry
  obtain hsame | ⟨task₁, n, -, hentry₁, hack⟩ := w.ack_stream messageId id
  · rw [hsame]
    exact ⟨d, hentry⟩
  · rw [hentry] at hentry₁
    rw [hack, ← (Entry.mk.inj (Option.some.inj hentry₁)).1]
    exact ⟨_, rfl⟩

theorem moves_recorded (h : WorkerState.Moves config p w st st' w') (hd : st.Durable w.db)
    (hstart : ∀ m, st = .starting m → ¬ w.db.Recorded m.task.taskId) (hrec : w.db.Recorded t) :
    w'.db.Recorded t := by
  obtain ⟨task, hfind, hterm⟩ := Db.recorded_iff.mp hrec
  obtain hsame | ⟨m, -, -, hnone, -⟩ | ⟨-, task', -, hfind', -, hwho⟩ := h.row t
  · exact Db.recorded_iff.mpr ⟨task, hsame.trans hfind, hterm⟩
  · rw [hfind] at hnone
    cases hnone
  · obtain ⟨m, hst, rfl, -⟩ | ⟨m, path, hst, rfl, hstatus⟩ := hwho
    · exact absurd hrec (hstart m hst)
    · rw [hst] at hd
      exact Db.recorded_iff.mpr ⟨task', hfind', by rw [hstatus]; exact hd.1⟩

theorem moves_terminated (h : WorkerState.Moves config p w st st' w') (hd : st.Durable w.db)
    (hnot : ¬ w.db.Recorded t) (hrec : w'.db.Recorded t) : w.db.Terminated t := by
  obtain ⟨task, hfind, hterm⟩ := Db.recorded_iff.mp hrec
  obtain hsame | ⟨m, -, -, -, task₁, hfind₁, hpending⟩ | ⟨-, task', -, hfind', -, hwho⟩ := h.row t
  · exact absurd (Db.recorded_iff.mpr ⟨task, hsame ▸ hfind, hterm⟩) hnot
  · rw [hfind] at hfind₁
    rw [Option.some.inj hfind₁, hpending] at hterm
    cases hterm
  · rw [hfind] at hfind'
    cases hfind'
    obtain ⟨m, -, -, hprocessing⟩ | ⟨m, path, hst, rfl, -⟩ := hwho
    · rw [hprocessing] at hterm
      cases hterm
    · rw [hst] at hd
      exact hd.2

theorem advance_tracked (ht : s.Tracked) (hok : s.Persists (.advance p o))
    (h : step config s (.advance p o) = some s') : s'.Tracked := by
  obtain ⟨⟨st, w⟩, hstep, rfl⟩ := Option.map_eq_some_iff.mp h
  have hm := WorkerState.step_moves hstep
  have hc := hm.continues ht.honest
  have htasks : SameTasks s.world w := by
    obtain hsame | ⟨m, path, -, rfl⟩ := hm.stream
    · exact .of_eq hsame
    · exact .ack s.world m.messageId
  refine ⟨fun q m hq => ?_, fun q => ?_, hc.honest ht.honest⟩
  · have hq' : (update s.workers p st q).message = some m := hq
    have hold : ∃ q', (s.workers q').message = some m := by
      rw [update_apply] at hq'
      split at hq'
      · exact ⟨p, hm.message hq'⟩
      · exact ⟨q, hq'⟩
    obtain ⟨q', hq'⟩ := hold
    obtain ⟨d, hentry⟩ := ht.entry q' m hq'
    exact htasks _ _ _ hentry
  · show WorkerState.Durable w.db (update s.workers p st q)
    rw [update_apply]
    split
    · exact WorkerState.step_durable hstep (ht.durable p) ht.honest hok.1
    · exact (ht.durable q).mono hc fun t _ hrec => moves_recorded hm (ht.durable p) hok.2 hrec

theorem Tracked.database (ht : s.Tracked) (hc : s.world.db.Continues db)
    (hrec : ∀ q t, (s.workers q).settled = some t → s.world.db.Recorded t → db.Recorded t) :
    ({ s with world := { s.world with db := db } } : System).Tracked :=
  ⟨ht.entry, fun q => (ht.durable q).mono hc (hrec q), hc.honest ht.honest⟩

theorem Tracked.stop (ht : s.Tracked) (hmessage : ∀ m, st.message = some m → (s.workers p).message = some m)
    (hd : st.Durable s.world.db) :
    ({ s with workers := update s.workers p st } : System).Tracked := by
  refine ⟨fun q m hq => ?_, fun q => ?_, ht.honest⟩
  · have hq' : (update s.workers p st q).message = some m := hq
    rw [update_apply] at hq'
    split at hq'
    · exact ht.entry p m (hmessage m hq')
    · exact ht.entry q m hq'
  · show WorkerState.Durable s.world.db (update s.workers p st q)
    rw [update_apply]
    split
    · exact hd
    · exact ht.durable q

theorem Tracked.hand {d d' : Delivery} (ht : s.Tracked) (hentry : s.world.stream id = some ⟨task, d⟩)
    (hmessage : ∀ m, st.message = some m → m.messageId = id ∧ m.task = task)
    (hd : st.Durable s.world.db) : (s.hand p id ⟨task, d'⟩ st).Tracked := by
  have htasks : SameTasks s.world (s.hand p id ⟨task, d'⟩ st).world := by
    intro id₁ task₁ d₁ hentry₁
    show ∃ d, update s.world.stream id (some ⟨task, d'⟩) id₁ = some ⟨task₁, d⟩
    by_cases hid : id₁ = id
    · rw [hid, hentry] at hentry₁
      rw [hid, update_self, (Entry.mk.inj (Option.some.inj hentry₁)).1]
      exact ⟨d', rfl⟩
    · rw [update_of_ne hid]
      exact ⟨d₁, hentry₁⟩
  refine ⟨fun q m hq => ?_, fun q => ?_, ht.honest⟩
  · have hq' : (update s.workers p st q).message = some m := hq
    rw [update_apply] at hq'
    split at hq'
    · obtain ⟨rfl, rfl⟩ := hmessage m hq'
      exact htasks _ _ _ hentry
    · obtain ⟨d₁, hentry₁⟩ := ht.entry q m hq'
      exact htasks _ _ _ hentry₁
  · show WorkerState.Durable s.world.db (update s.workers p st q)
    rw [update_apply]
    split
    · exact hd
    · exact ht.durable q

theorem decide_recorded {t' : String} {decision : ReviewDecision} {reason : Option String} {auditId now : ℕ}
    (h : db.decide t decision reason auditId now commits = .ok db') (hok : t' = t → decision = .approve)
    (hrec : db.Recorded t') : db'.Recorded t' := by
  obtain ⟨task, hfind, hterm⟩ := Db.recorded_iff.mp hrec
  obtain ⟨-, hsame⟩ | ⟨-, task', ht, -, -, hfind', hstatus⟩ := decide_find h t'
  · exact Db.recorded_iff.mpr ⟨task, hsame.trans hfind, hterm⟩
  · rw [hok ht] at hstatus
    exact Db.recorded_iff.mpr ⟨task', hfind', by rw [hstatus]; rfl⟩

/-- One step, of a worker or of anybody else, keeps what the workers count on. -/
theorem step_tracked (ht : s.Tracked) (hok : s.Persists a) (h : step config s a = some s') : s'.Tracked := by
  cases a with
  | register task commits =>
    obtain ⟨d, db, hbegin, rfl⟩ := register_eq h
    refine ht.database (Db.begin_continues hbegin) fun _ t _ hrec => ?_
    obtain ⟨row, hfind, hterm⟩ := Db.recorded_iff.mp hrec
    obtain hsame | ⟨-, hnone, -⟩ := Db.begin_find hbegin t
    · exact Db.recorded_iff.mpr ⟨row, hsame.trans hfind, hterm⟩
    · rw [hfind] at hnone
      cases hnone
  | publish id task =>
    simp only [step] at h
    split at h
    · rename_i hfree
      cases h
      refine ⟨fun q m hq => ?_, ht.durable, ht.honest⟩
      obtain ⟨d, hentry⟩ := ht.entry q m hq
      refine ⟨d, ?_⟩
      show update s.world.stream id _ m.messageId = _
      rw [update_of_ne]
      · exact hentry
      · rintro rfl
        rw [hentry] at hfree
        cases hfree
    · cases h
  | read p id =>
    obtain ⟨task, -, hentry, rfl⟩ := read_eq h
    refine ht.hand hentry (fun m hm => ?_) trivial
    cases hm
    exact ⟨rfl, rfl⟩
  | claim p id counted =>
    obtain ⟨task, n, count, -, hentry, rfl⟩ := claim_eq h
    refine ht.hand hentry (fun m hm => ?_) trivial
    cases hm
    exact ⟨rfl, rfl⟩
  | advance p o => exact advance_tracked ht hok h
  | fail p =>
    simp only [step] at h
    split at h
    · cases h
      exact ht.stop (WorkerState.Narrows.failed _).message (WorkerState.durable_failed _ _)
    · cases h
  | crash p =>
    simp only [step] at h
    split at h
    · cases h
      exact ht.stop (fun m hm => by cases hm) trivial
    · cases h
  | expireLock key =>
    cases h
    exact ⟨ht.entry, ht.durable, ht.honest⟩
  | decide t decision reason auditId now commits =>
    obtain ⟨db, hdb, rfl⟩ := decide_eq h
    have hc : s.world.db.Continues db := by
      obtain ⟨-, -, -, -, -, -, -, -, -, -, -, -, -, rfl⟩ := Db.decide_ok hdb
      exact .of_threads rfl
    refine ht.database hc fun q t' hq hrec => decide_recorded hdb ?_ hrec
    rintro rfl
    cases decision with
    | approve => rfl
    | reject => exact absurd hq (hok q)

/-- An entry is acknowledged only when its task is recorded and its thread terminal. -/
theorem step_acknowledged (ht : s.Tracked) (h : step config s a = some s') {n : ℕ}
    (hpending : s.world.stream id = some ⟨task, .pending n⟩)
    (hgone : ∀ n', s'.world.stream id ≠ some ⟨task, .pending n'⟩) :
    s.world.db.Recorded task.taskId ∧ s.world.db.Terminated task.taskId := by
  -- Every other action leaves the entry as it is, or counts a delivery.
  have hupdate : ∀ (id₁ : String) (entry : Entry),
      (id₁ = id → ∃ n', entry = ⟨task, .pending n'⟩) →
      ∃ n', update s.world.stream id₁ (some entry) id = some ⟨task, .pending n'⟩ := by
    intro id₁ entry heq
    by_cases hid : id = id₁
    · obtain ⟨n', rfl⟩ := heq hid.symm
      rw [hid, update_self]
      exact ⟨n', rfl⟩
    · rw [update_of_ne hid]
      exact ⟨n, hpending⟩
  cases a with
  | advance p o =>
    obtain ⟨⟨st, w⟩, hstep, rfl⟩ := Option.map_eq_some_iff.mp h
    obtain hsame | ⟨m, path, hst, rfl⟩ := (WorkerState.step_moves hstep).stream
    · exact absurd (hsame ▸ hpending) (hgone n)
    · obtain hsame | ⟨task₁, n₁, rfl, hentry, -⟩ := s.world.ack_stream m.messageId id
      · exact absurd (hsame.trans hpending) (hgone n)
      · obtain ⟨d, hentry'⟩ := ht.entry p m (by rw [hst]; rfl)
        rw [hpending] at hentry'
        obtain ⟨rfl, -⟩ := Entry.mk.inj (Option.some.inj hentry')
        have hd := ht.durable p
        rw [hst] at hd
        exact hd
  | register task₁ commits =>
    obtain ⟨d, db, -, rfl⟩ := register_eq h
    exact absurd hpending (hgone n)
  | publish id₁ task₁ =>
    simp only [step] at h
    split at h
    · rename_i hfree
      cases h
      obtain ⟨n', hn'⟩ := hupdate id₁ ⟨task₁, .new⟩ fun hid => by
        rw [hid, hpending] at hfree
        cases hfree
      exact absurd hn' (hgone n')
    · cases h
  | read p id₁ =>
    obtain ⟨task₁, -, hentry, rfl⟩ := read_eq h
    obtain ⟨n', hn'⟩ := hupdate id₁ ⟨task₁, .pending 1⟩ fun hid => by
      rw [hid, hpending] at hentry
      cases hentry
    exact absurd hn' (hgone n')
  | claim p id₁ counted =>
    obtain ⟨task₁, n₁, count, -, hentry, rfl⟩ := claim_eq h
    obtain ⟨n', hn'⟩ := hupdate id₁ ⟨task₁, .pending (n₁ + 1)⟩ fun hid => by
      rw [hid, hpending] at hentry
      cases hentry
      exact ⟨n + 1, rfl⟩
    exact absurd hn' (hgone n')
  | fail p =>
    simp only [step] at h
    split at h
    · cases h
      exact absurd hpending (hgone n)
    · cases h
  | crash p =>
    simp only [step] at h
    split at h
    · cases h
      exact absurd hpending (hgone n)
    · cases h
  | expireLock key =>
    cases h
    exact absurd hpending (hgone n)
  | decide t decision reason auditId now commits =>
    obtain ⟨db, -, rfl⟩ := decide_eq h
    exact absurd hpending (hgone n)

/-- An outcome gets recorded only behind a thread that is terminated. -/
theorem step_recorded (ht : s.Tracked) (h : step config s a = some s') (hnot : ¬ s.world.db.Recorded t)
    (hrec : s'.world.db.Recorded t) : s.world.db.Terminated t := by
  cases a with
  | advance p o =>
    obtain ⟨⟨st, w⟩, hstep, rfl⟩ := Option.map_eq_some_iff.mp h
    exact moves_terminated (WorkerState.step_moves hstep) (ht.durable p) hnot hrec
  | register task commits =>
    obtain ⟨d, db, hbegin, rfl⟩ := register_eq h
    obtain ⟨row, hfind, hterm⟩ := Db.recorded_iff.mp hrec
    obtain hsame | ⟨-, -, hnew⟩ := Db.begin_find hbegin t
    · exact absurd (Db.recorded_iff.mpr ⟨row, hsame ▸ hfind, hterm⟩) hnot
    · have hrow : some row = _ := hfind.symm.trans hnew
      rw [Option.some.inj hrow] at hterm
      cases hterm
  | publish id task =>
    simp only [step] at h
    split at h
    · cases h
      exact absurd hrec hnot
    · cases h
  | read p id =>
    obtain ⟨task, -, -, rfl⟩ := read_eq h
    exact absurd hrec hnot
  | claim p id counted =>
    obtain ⟨task, n, count, -, -, rfl⟩ := claim_eq h
    exact absurd hrec hnot
  | fail p =>
    simp only [step] at h
    split at h
    · cases h
      exact absurd hrec hnot
    · cases h
  | crash p =>
    simp only [step] at h
    split at h
    · cases h
      exact absurd hrec hnot
    · cases h
  | expireLock key =>
    cases h
    exact absurd hrec hnot
  | decide t' decision reason auditId now commits =>
    obtain ⟨db, hdb, rfl⟩ := decide_eq h
    obtain ⟨row, hfind, hterm⟩ := Db.recorded_iff.mp hrec
    obtain ⟨-, hsame⟩ | ⟨task, -, -, hfind₁, hreview, -⟩ := decide_find hdb t
    · exact absurd (Db.recorded_iff.mpr ⟨row, hsame ▸ hfind, hterm⟩) hnot
    · exact absurd (Db.recorded_iff.mpr ⟨task, hfind₁, by rw [hreview]; rfl⟩) hnot

theorem Initial.tracked (h : s.Initial)
    (hh : ∀ t r, s.world.db.threads t = some r → Honest r) : s.Tracked := by
  refine ⟨fun p m hm => ?_, fun p => ?_, hh⟩
  · rw [h p] at hm
    cases hm
  · rw [h p]
    trivial

/-- **Only what is durable is acknowledged.**  In every run whose steps persist, a message leaves the
pending list only while the ledger shows a terminal status and the thread is `TERMINAL`, and the
ledger turns terminal only when the thread is. -/
theorem acknowledged_is_durable {s₀ s s' : System} {run : List Action} {a : Action} (h₀ : s₀.Initial)
    (hh : ∀ t r, s₀.world.db.threads t = some r → Honest r)
    (hok : Meets (step config) Persists s₀ (run ++ [a])) (hrun : exec (step config) s₀ run = some s)
    (hstep : step config s a = some s') :
    (∀ id task n, s.world.stream id = some ⟨task, .pending n⟩ →
      (∀ n', s'.world.stream id ≠ some ⟨task, .pending n'⟩) →
      s.world.db.Recorded task.taskId ∧ s.world.db.Terminated task.taskId) ∧
    ∀ t, ¬ s.world.db.Recorded t → s'.world.db.Recorded t → s.world.db.Terminated t := by
  have ht : s.Tracked := exec_invariant (fun _ _ _ ht hr hstep => step_tracked ht hr hstep)
    (meets_append.mp hok).1 hrun (h₀.tracked hh)
  exact ⟨fun id task n hpending hgone => step_acknowledged ht hstep hpending hgone,
    fun t hnot hrec => step_recorded ht hstep hnot hrec⟩

/-! ### An acknowledgement with and without the thread -/

/-- A decidable part of `Persists`: nothing raises there, nobody rejects, and nobody sets a task that
is not `PENDING` to `PROCESSING`. -/
def persistent (s : System) : Action → Bool
  | .advance p o =>
    match s.workers p with
    | .terminating _ _ _ => !o.raises
    | .starting m => s.status m.task.taskId = some .pending
    | _ => true
  | .decide _ _ _ _ _ _ => false
  | _ => true

theorem persists_of_persistent (s : System) (a : Action) (h : s.persistent a = true) : s.Persists a := by
  cases a with
  | advance p o =>
    refine ⟨fun m path node hst hraises => ?_, fun m hst hrec => ?_⟩
    · simp [persistent, hst, hraises] at h
    · obtain ⟨status, hstatus, hterm⟩ := hrec
      have hpending : s.status m.task.taskId = some .pending := by
        simpa [persistent, hst] using h
      rw [show s.world.db.status m.task.taskId = some .pending from hpending] at hstatus
      rw [← Option.some.inj hstatus] at hterm
      cases hterm
  | decide t decision reason auditId now commits => cases h
  | _ => trivial

/-- A worker on its way from an approval to the acknowledgement. -/
def toAck (marking : Outcome) : List Action :=
  toVerdict .approved ⟨none, false, some "APPROVED"⟩ ++
    [.advance 0 (smooth .failed), .advance 0 marking] ++
    List.replicate 3 (.advance 0 (smooth .failed))

/-- The message has left the pending list. -/
def acked (s : System) : Bool :=
  s.world.stream "1-0" = some ⟨exampleTask, .acknowledged⟩

/-- A message that is acknowledged with everything in place. -/
theorem acknowledged_is_durable_approval : ∃ s s',
    exec (step exampleConfig) empty (toAck (smooth .failed)) = some s ∧
      step exampleConfig s (.advance 0 (smooth .failed)) = some s' ∧ s'.acked = true ∧
      s.world.db.Recorded "TASK-1" ∧ s.world.db.Terminated "TASK-1" := by
  have hx : ((exec (step exampleConfig) empty (toAck (smooth .failed))).bind fun s =>
      (step exampleConfig s (.advance 0 (smooth .failed))).map fun s' =>
        decide (s.world.stream "1-0" = some ⟨exampleTask, .pending 1⟩ ∧ s'.acked = true)) =
      some true := by
    decide +kernel
  have hok : Meets (step exampleConfig) (fun s a => s.persistent a = true) empty
      (toAck (smooth .failed) ++ [.advance 0 (smooth .failed)]) := by
    decide +kernel
  obtain ⟨s, hs, hx⟩ := Option.bind_eq_some_iff.mp hx
  obtain ⟨s', hs', hx⟩ := Option.map_eq_some_iff.mp hx
  obtain ⟨hpending, hacked⟩ := of_decide_eq_true hx
  obtain ⟨hdurable, -⟩ := acknowledged_is_durable empty_initial (fun t r hr => by cases hr)
    (hok.mono persists_of_persistent) hs hs'
  refine ⟨s, s', hs, hs', hacked, hdurable "1-0" exampleTask 1 hpending fun n' hn' => ?_⟩
  rw [of_decide_eq_true hacked] at hn'
  cases hn'

/-- **When the repository raises, the message is acknowledged all the same**, with the task `APPROVED`
in the ledger and the thread not `TERMINAL`. -/
theorem acknowledged_without_thread :
    ¬ ∀ (run : List Action) (a : Action) (s s' : System), exec (step exampleConfig) empty run = some s →
      step exampleConfig s a = some s' → ∀ id task n,
      s.world.stream id = some ⟨task, .pending n⟩ →
      (∀ n', s'.world.stream id ≠ some ⟨task, .pending n'⟩) →
      s.world.db.Recorded task.taskId ∧ s.world.db.Terminated task.taskId := by
  intro hdurable
  have hx : ((exec (step exampleConfig) empty (toAck raising)).bind fun s =>
      (step exampleConfig s (.advance 0 (smooth .failed))).map fun s' =>
        decide (s.world.stream "1-0" = some ⟨exampleTask, .pending 1⟩ ∧ s'.acked = true ∧
          s.world.db.threadStatus "TASK-1" ≠ some .terminal)) = some true := by
    decide +kernel
  obtain ⟨s, hs, hx⟩ := Option.bind_eq_some_iff.mp hx
  obtain ⟨s', hs', hx⟩ := Option.map_eq_some_iff.mp hx
  obtain ⟨hpending, hacked, hthread⟩ := of_decide_eq_true hx
  refine hthread (hdurable _ _ s s' hs hs' "1-0" exampleTask 1 hpending fun n' hn' => ?_).2
  rw [of_decide_eq_true hacked] at hn'
  cases hn'

end System

end CountyFlow.Worker
