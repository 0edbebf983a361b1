import CountyFlow.Lib.Runs
import CountyFlow.Worker.Process

/-!
# Any number of workers

The workers, the API that registers tasks and publishes messages, and the reviewers share one
`World`.  A message is handed to a worker by a read or by a claim of the pending list, is processed
step by step, and may be claimed again at any time; workers fail and crash between any two calls, and
locks expire.
-/

namespace CountyFlow.Worker

open CountyFlow.Lib CountyFlow.Runtime Function

/-! ### Ledger rows -/

variable {db db' : Db} {t taskId : String} {task : DispatchTask} {commits : Bool} {now : ℕ}

namespace Db

theorem status_eq (h : db.tasks.find t = some task) : db.status t = some task.status := by
  unfold status
  rw [h]
  rfl

theorem executeDispatch_tasks (db : Db) (t : String) (id : ℕ) (status : DispatchStatus) :
    (db.executeDispatch t id status).tasks = db.tasks := by
  unfold executeDispatch
  split <;> rfl

theorem executeDispatch_threads (db : Db) (t : String) (id : ℕ) (status : DispatchStatus) :
    (db.executeDispatch t id status).threads = db.threads := by
  unfold executeDispatch
  split <;> rfl

theorem persistAudit_tasks (db : Db) (t : String) (id : ℕ) (result : AuditResult) (reason : String) :
    (db.persistAudit t id result reason).tasks = db.tasks := by
  unfold persistAudit
  split
  · split <;> rfl
  · rfl

theorem persistAudit_threads (db : Db) (t : String) (id : ℕ) (result : AuditResult)
    (reason : String) : (db.persistAudit t id result reason).threads = db.threads := by
  unfold persistAudit
  split
  · split <;> rfl
  · rfl

theorem persistAudit_dispatches (db : Db) (t : String) (id : ℕ) (result : AuditResult)
    (reason : String) : (db.persistAudit t id result reason).dispatches = db.dispatches := by
  unfold persistAudit
  split
  · split <;> rfl
  · rfl

theorem begin_find {key : String} {orderId : ℤ} {d : IdempotencyDecision}
    (h : db.begin taskId orderId key commits = .ok (d, db')) (t : String) :
    db'.tasks.find t = db.tasks.find t ∨
      (t = taskId ∧ db.tasks.find t = none ∧
        db'.tasks.find t = some ⟨taskId, orderId, key, .pending, none, none⟩) := by
  obtain ⟨task, rfl, -⟩ | ⟨tasks, threadId, -, hnone, -, hadd, rfl⟩ := begin_ok h
  · exact .inl rfl
  · by_cases ht : t = taskId
    · refine .inr ⟨ht, ?_, ?_⟩
      · rw [ht]
        exact hnone
      · show tasks.find t = _
        rw [Table.find_add hadd]
        exact if_pos ht
    · refine .inl ?_
      show tasks.find t = _
      rw [Table.find_add hadd]
      exact if_neg ht

theorem setStatus_find {status : TaskStatus} {started completed : Bool}
    (h : db.setStatus taskId status started completed now commits = .ok db') (t : String) :
    (t ≠ taskId ∧ db'.tasks.find t = db.tasks.find t) ∨
      ∃ task task', t = taskId ∧ db.tasks.find t = some task ∧ db'.tasks.find t = some task' ∧
        task'.idempotencyKey = task.idempotencyKey ∧ task'.status = status := by
  obtain ⟨task, task', hfind, hid, hkey, hstatus, rfl⟩ := setStatus_ok h
  by_cases ht : t = taskId
  · subst ht
    refine .inr ⟨task, task', rfl, hfind, ?_, hkey, hstatus⟩
    show (db.tasks.replace task').find t = some task'
    rw [Table.find_replace, if_pos hid.symm, hfind]
    rfl
  · refine .inl ⟨ht, ?_⟩
    show (db.tasks.replace task').find t = _
    exact Table.find_replace_ne _ _ fun h => ht (h.trans hid)

end Db

variable {p : ℕ} {w w' : World} {st' : WorkerState}

namespace WorkerState

theorem Moves.row {config : WorkerConfig} {st : WorkerState} (h : Moves config p w st st' w') (t : String) :
    w'.db.tasks.find t = w.db.tasks.find t ∨
      (∃ m, st = .beginning m ∧ t = m.task.taskId ∧ w.db.tasks.find t = none ∧
        ∃ task, w'.db.tasks.find t = some task ∧ task.status = .pending) ∨
      ∃ task task', w.db.tasks.find t = some task ∧ w'.db.tasks.find t = some task' ∧
        task'.idempotencyKey = task.idempotencyKey ∧
        ((∃ m, st = .starting m ∧ t = m.task.taskId ∧ task'.status = .processing) ∨
          ∃ m path, st = .recording m path ∧ t = m.task.taskId ∧ task'.status = path.status) := by
  cases h with
  | quiet hn => exact .inl rfl
  | probed hfree => exact .inl rfl
  | acquired hfree => exact .inl rfl
  | released hn hk =>
    refine .inl ?_
    unfold World.release
    split <;> rfl
  | @began m d db hbegin =>
    obtain hsame | ⟨ht, hnone, hnew⟩ := Db.begin_find hbegin t
    · exact .inl hsame
    · exact .inr (Or.inl ⟨m, rfl, ht, hnone, _, hnew, rfl⟩)
  | @started m now commits db hmark =>
    obtain ⟨-, hsame⟩ | ⟨task, task', ht, hfind, hfind', hkey, hstatus⟩ :=
      Db.setStatus_find hmark t
    · exact .inl hsame
    · exact .inr (Or.inr ⟨task, task', hfind, hfind', hkey, Or.inl ⟨m, rfl, ht, hstatus⟩⟩)
  | @recorded m path now commits db hmark =>
    obtain ⟨-, hsame⟩ | ⟨task, task', ht, hfind, hfind', hkey, hstatus⟩ :=
      Db.setStatus_find hmark t
    · exact .inl hsame
    · exact .inr (Or.inr ⟨task, task', hfind, hfind', hkey,
        Or.inr ⟨m, path, rfl, ht, hstatus⟩⟩)
  | steered hst hr hop => exact .inl rfl
  | terminated hr hterm => exact .inl rfl
  | proposed =>
    refine .inl ?_
    show (w.db.executeDispatch _ _ _).tasks.find t = _
    rw [Db.executeDispatch_tasks]
  | audited =>
    refine .inl ?_
    show (w.db.persistAudit _ _ _ _).tasks.find t = _
    rw [Db.persistAudit_tasks]
  | appended => exact .inl rfl
  | acked hn =>
    refine .inl ?_
    unfold World.ack
    split <;> rfl

end WorkerState

/-! ### The system -/

structure System where
  world : World
  workers : ℕ → WorkerState

inductive Action where
  | register (task : DispatchTaskMessage) (commits : Bool)
  | publish (messageId : String) (task : DispatchTaskMessage)
  | read (p : ℕ) (messageId : String)
  | claim (p : ℕ) (messageId : String) (counted : Bool)
  | advance (p : ℕ) (o : Outcome)
  | fail (p : ℕ)
  | crash (p : ℕ)
  | expireLock (key : String)
  | decide (taskId : String) (decision : ReviewDecision) (reason : Option String) (auditId now : ℕ)
      (commits : Bool)
  deriving DecidableEq, Repr

def WorkerState.live (st : WorkerState) : Bool := st.message.isSome

variable {q auditId : ℕ} {k id : String} {s' : System} {decision : ReviewDecision} {reason : Option String}

namespace System

variable (config : WorkerConfig)

def hand (s : System) (p : ℕ) (messageId : String) (entry : Entry) (st : WorkerState) : System where
  world := { s.world with stream := update s.world.stream messageId (some entry) }
  workers := update s.workers p st

/-- The state after an action, `none` when it is not enabled.  `XREADGROUP` delivers a new entry and
`XAUTOCLAIM` a pending one, and both count the delivery; the count may be unavailable to the
claimant. -/
def step (s : System) : Action → Option System
  | .register task commits =>
    (s.world.db.begin task.taskId task.orderId task.idempotencyKey commits).toOption.map
      fun (_, db) => { s with world := { s.world with db := db } }
  | .publish messageId task =>
    if s.world.stream messageId = none then
      some { s with world := { s.world with
        stream := update s.world.stream messageId (some ⟨task, .new⟩) } }
    else none
  | .read p messageId =>
    match s.workers p, s.world.stream messageId with
    | .idle, some ⟨task, .new⟩ =>
      some (s.hand p messageId ⟨task, .pending 1⟩ (.acquiring ⟨messageId, task, none⟩))
    | _, _ => none
  | .claim p messageId counted =>
    match s.workers p, s.world.stream messageId with
    | .idle, some ⟨task, .pending n⟩ =>
      some (s.hand p messageId ⟨task, .pending (n + 1)⟩
        (.recovering ⟨messageId, task, if counted then some (n + 1) else none⟩))
    | _, _ => none
  | .advance p o =>
    (WorkerState.step config p o s.world (s.workers p)).map fun (st, world) =>
      { world := world, workers := update s.workers p st }
  | .fail p =>
    if (s.workers p).live then
      some { s with workers := update s.workers p (s.workers p).failed }
    else none
  | .crash p =>
    if (s.workers p).live then
      some { s with workers := update s.workers p (.done none) }
    else none
  | .expireLock key =>
    some { s with world := { s.world with locks := update s.world.locks key none } }
  | .decide taskId decision reason auditId now commits =>
    (s.world.db.decide taskId decision reason auditId now commits).toOption.map fun db =>
      { s with world := { s.world with db := db } }

variable {config}

/-- The statuses the ledger shows. -/
def status (s : System) (t : String) : Option TaskStatus := s.world.db.status t

/-- Where runs begin: any tables, streams and locks, and no message in anyone's hands. -/
def Initial (s : System) : Prop := ∀ p, s.workers p = .idle

/-- A dead letter is recorded only for a task that is not terminal, or `DLQ` already, and that no
worker may still write; and no lock expires under a worker that relies on it. -/
def Careful (s : System) : Action → Prop
  | .advance p _ => ∀ m n, s.workers p = .recording m (.deadLetter n) →
      (∀ status, s.status m.task.taskId = some status → status.terminal = true → status = .dlq) ∧
        ∀ q, (s.workers q).writes ≠ some m.task.taskId
  | .expireLock key => ∀ q, (s.workers q).relies ≠ some key
  | _ => True

/-- Who relies on a lock has it, and who may still write a row under it finds the row with that key,
and not terminal. -/
structure Guarded (s : System) : Prop where
  lock : ∀ p k, (s.workers p).relies = some k → s.world.locks k = some p
  row : ∀ p t, (s.workers p).writes = some t → ∃ task, s.world.db.tasks.find t = some task ∧
    (s.workers p).relies = some task.idempotencyKey ∧ task.status.terminal = false

variable {s : System}

theorem Guarded.alone (h : s.Guarded) (hp : (s.workers p).writes = some t)
    (hq : (s.workers q).writes = some t) : p = q := by
  obtain ⟨task, hfind, hk, -⟩ := h.row p t hp
  obtain ⟨task', hfind', hk', -⟩ := h.row q t hq
  rw [hfind] at hfind'
  cases hfind'
  have hlock := h.lock p _ hk
  rw [h.lock q _ hk'] at hlock
  exact (Option.some.inj hlock).symm

/-! ### What the actions do -/

variable {st : WorkerState}

theorem moves_lock (h : WorkerState.Moves config p w st st' w') (hne : q ≠ p) (hq : w.locks k = some q) :
    w'.locks k = some q := by
  have hacquire : ∀ k', w.locks k' = none →
      update w.locks k' (some p) k = some q := by
    intro k' hfree
    by_cases hk : k = k'
    · rw [hk, hfree] at hq
      cases hq
    · rw [update_of_ne hk]
      exact hq
  cases h with
  | probed hfree => exact hacquire _ hfree
  | acquired hfree => exact hacquire _ hfree
  | @released st st' k' hn hk =>
    unfold World.release
    split
    · rename_i hheld
      show update w.locks k' none k = some q
      by_cases hk' : k = k'
      · rw [← hk', hq] at hheld
        exact absurd (Option.some.inj hheld) hne
      · rw [update_of_ne hk']
        exact hq
    · exact hq
  | acked hn =>
    unfold World.ack
    split <;> exact hq
  | _ => exact hq

theorem moves_lock_self (h : WorkerState.Moves config p w st st' w')
    (hold : st.relies = some k → w.locks k = some p) (hk : st'.relies = some k) : w'.locks k = some p := by
  cases h with
  | quiet hn => exact hold (hn.relies k hk)
  | probed hfree => cases hk
  | acquired hfree =>
    cases hk
    exact update_self _ _ _
  | released hn hnone =>
    rw [hnone] at hk
    cases hk
  | @began m d db hbegin =>
    refine hold ?_
    unfold WorkerState.afterBegin at hk
    split at hk
    · cases hk
    · exact hk
    · exact hk
  | started hmark => exact hold hk
  | @recorded m path now commits db hmark =>
    cases path <;> cases hk
  | @steered m st state op commits r r' hst hr hop =>
    refine hold ?_
    rcases hst with rfl | rfl
    · exact hk
    · exact hk
  | @terminated m path node now commits r r' hr hterm =>
    exact hold ((WorkerState.Narrows.afterTerminal m path node).relies k hk)
  | proposed => exact hold hk
  | audited => exact hold hk
  | appended => cases hk
  | acked hn =>
    have hk' := hn.relies k hk
    cases hk'

theorem relies_of_writes (h : st.writes = some t) :
    ∃ m, st.message = some m ∧ t = m.task.taskId ∧ st.relies = some m.task.idempotencyKey := by
  have hif : ∀ (b : Bool) (m : StreamMessage), (if b then some m.task.taskId else none) = some t →
      t = m.task.taskId ∧
        (if b then some m.task.idempotencyKey else none) = some m.task.idempotencyKey := by
    intro b m hb
    cases b with
    | false => cases hb
    | true => exact ⟨(Option.some.inj hb).symm, rfl⟩
  cases st with
  | reconciling m => exact ⟨m, rfl, (Option.some.inj h).symm, rfl⟩
  | starting m => exact ⟨m, rfl, (Option.some.inj h).symm, rfl⟩
  | loading m state => exact ⟨m, rfl, (Option.some.inj h).symm, rfl⟩
  | mending m state => exact ⟨m, rfl, (Option.some.inj h).symm, rfl⟩
  | running m state => exact ⟨m, rfl, (Option.some.inj h).symm, rfl⟩
  | looking m path => exact ⟨m, rfl, hif path.unrecorded m h⟩
  | terminating m path node => exact ⟨m, rfl, hif path.unrecorded m h⟩
  | recording m path => exact ⟨m, rfl, hif path.locked m h⟩
  | _ => cases h

theorem afterBegin_decision (m : StreamMessage) (task : DispatchTask) :
    WorkerState.afterBegin m (Db.decision task) =
      if task.status.terminal then .looking m (.replay task.status) else .reconciling m := by
  unfold WorkerState.afterBegin Db.decision
  by_cases h : task.status.terminal = true
  · rw [if_pos h, if_pos h]
    rfl
  · rw [if_neg h, if_neg h]

/-- What a writer needs of the database. -/
def Writable (db : Db) (st : WorkerState) (t : String) : Prop :=
  ∃ task, db.tasks.find t = some task ∧ st.relies = some task.idempotencyKey ∧
    task.status.terminal = false

theorem Writable.narrow (h : Writable db st t) (hn : st.Narrows st')
    (ht : st'.writes = some t) : Writable db st' t := by
  obtain ⟨task, hfind, hk, hstatus⟩ := h
  obtain ⟨m, hm, -, hk'⟩ := relies_of_writes ht
  obtain ⟨m₁, hm₁, -, hk₁⟩ := relies_of_writes (hn.writes t ht)
  rw [hn.message m hm] at hm₁
  cases hm₁
  rw [hk] at hk₁
  exact ⟨task, hfind, by rw [hk', Option.some.inj hk₁], hstatus⟩

theorem moves_writable (h : WorkerState.Moves config p w st st' w')
    (hold : st.writes = some t → Writable w.db st t) (ht : st'.writes = some t) : Writable w'.db st' t := by
  cases h with
  | quiet hn => exact (hold (hn.writes t ht)).narrow hn ht
  | probed hfree => cases ht
  | acquired hfree => cases ht
  | released hn hnone =>
    obtain ⟨m, -, -, hk⟩ := relies_of_writes ht
    rw [hnone] at hk
    cases hk
  | @began m d db hbegin =>
    obtain ⟨task, rfl, hfind, hkey, rfl⟩ | ⟨tasks, threadId, hnew, -, -, hadd, rfl⟩ :=
      Db.begin_ok hbegin
    · rw [afterBegin_decision] at ht ⊢
      split at ht
      · cases ht
      · rename_i hstatus
        cases ht
        rw [if_neg hstatus]
        exact ⟨task, hfind, congrArg some hkey.symm, Bool.eq_false_iff.mpr hstatus⟩
    · have hst : WorkerState.afterBegin m d = .starting m := by
        unfold WorkerState.afterBegin
        rw [hnew]
      rw [hst] at ht ⊢
      cases ht
      have hfind : tasks.find m.task.taskId =
          some ⟨m.task.taskId, m.task.orderId, m.task.idempotencyKey, .pending, none, none⟩ := by
        rw [Table.find_add hadd]
        exact if_pos rfl
      exact ⟨_, hfind, rfl, rfl⟩
  | @started m now commits db hmark =>
    cases ht
    obtain ⟨task, hfind, hk, -⟩ := hold rfl
    obtain ⟨hne, -⟩ | ⟨task₁, task', -, hfind₁, hfind', hkey, hstatus⟩ :=
      Db.setStatus_find hmark m.task.taskId
    · exact absurd rfl hne
    · rw [hfind] at hfind₁
      cases hfind₁
      refine ⟨task', hfind', ?_, by rw [hstatus]; rfl⟩
      rw [hkey]
      exact hk
  | @recorded m path now commits db hmark => cases path <;> cases ht
  | @steered m st state op commits r r' hst hr hop =>
    rcases hst with rfl | rfl
    · exact hold ht
    · exact hold ht
  | @terminated m path node now commits r r' hr hterm =>
    have hn := WorkerState.Narrows.afterTerminal m path node
    exact (hold (hn.writes t ht)).narrow hn ht
  | proposed =>
    obtain ⟨task, hfind, hk, hstatus⟩ := hold ht
    refine ⟨task, ?_, hk, hstatus⟩
    show (w.db.executeDispatch _ _ _).tasks.find t = _
    rw [Db.executeDispatch_tasks]
    exact hfind
  | audited =>
    obtain ⟨task, hfind, hk, hstatus⟩ := hold ht
    refine ⟨task, ?_, hk, hstatus⟩
    show (w.db.persistAudit _ _ _ _).tasks.find t = _
    rw [Db.persistAudit_tasks]
    exact hfind
  | appended => cases ht
  | acked hn => cases hn.writes t ht

theorem advance_row (h : WorkerState.Moves config p s.world (s.workers p) st w)
    (hfind : s.world.db.tasks.find t = some task) :
    w.db.tasks.find t = some task ∨
      ∃ task', w.db.tasks.find t = some task' ∧ task'.idempotencyKey = task.idempotencyKey ∧
        ((s.workers p).writes = some t ∨ ∃ m n, s.workers p = .recording m (.deadLetter n) ∧
          t = m.task.taskId ∧ task'.status = .dlq) := by
  obtain hsame | ⟨m, -, -, hnone, -⟩ | ⟨task₁, task', hfind₁, hfind', hkey, hwho⟩ := h.row t
  · rw [hsame]
    exact .inl hfind
  · rw [hfind] at hnone
    cases hnone
  · rw [hfind] at hfind₁
    cases hfind₁
    refine .inr ⟨task', hfind', hkey, ?_⟩
    obtain ⟨m, hst, rfl, -⟩ | ⟨m, path, hst, rfl, hstatus⟩ := hwho
    · rw [hst]
      exact .inl rfl
    · cases path with
      | deadLetter n => exact .inr ⟨m, n, hst, rfl, hstatus⟩
      | _ =>
        rw [hst]
        exact .inl rfl

/-! ### One step -/

theorem advance_guarded {o : Outcome} (hg : s.Guarded) (hok : s.Careful (.advance p o))
    (h : step config s (.advance p o) = some s') : s'.Guarded := by
  obtain ⟨⟨st, w⟩, hstep, rfl⟩ := Option.map_eq_some_iff.mp h
  have hm := WorkerState.step_moves hstep
  refine ⟨fun q k hk => ?_, fun q t ht => ?_⟩
  · have hk' : (update s.workers p st q).relies = some k := hk
    show w.locks k = some q
    by_cases hq : q = p
    · subst hq
      rw [update_self] at hk'
      exact moves_lock_self hm (hg.lock q k) hk'
    · rw [update_of_ne hq] at hk'
      exact moves_lock hm hq (hg.lock q k hk')
  · have ht' : (update s.workers p st q).writes = some t := ht
    show Writable w.db (update s.workers p st q) t
    by_cases hq : q = p
    · subst hq
      rw [update_self] at ht' ⊢
      exact moves_writable hm (hg.row q t) ht'
    · rw [update_of_ne hq] at ht' ⊢
      obtain ⟨task, hfind, hk, hstatus⟩ := hg.row q t ht'
      obtain hsame | ⟨task', -, -, hwrites | ⟨m, n, hst, rfl, -⟩⟩ := advance_row hm hfind
      · exact ⟨task, hsame, hk, hstatus⟩
      · exact absurd (hg.alone ht' hwrites) hq
      · exact absurd ht' ((hok m n hst).2 q)

theorem Guarded.narrow (hg : s.Guarded) (hn : (s.workers p).Narrows st) :
    ({ s with workers := update s.workers p st } : System).Guarded := by
  refine ⟨fun q k hk => ?_, fun q t ht => ?_⟩
  · have hk' : (update s.workers p st q).relies = some k := hk
    by_cases hq : q = p
    · subst hq
      rw [update_self] at hk'
      exact hg.lock q k (hn.relies k hk')
    · rw [update_of_ne hq] at hk'
      exact hg.lock q k hk'
  · have ht' : (update s.workers p st q).writes = some t := ht
    show Writable s.world.db (update s.workers p st q) t
    by_cases hq : q = p
    · subst hq
      rw [update_self] at ht' ⊢
      have hw : Writable s.world.db (s.workers q) t := hg.row q t (hn.writes t ht')
      exact hw.narrow hn ht'
    · rw [update_of_ne hq] at ht' ⊢
      exact hg.row q t ht'

theorem Guarded.world (hg : s.Guarded) (hlocks : w.locks = s.world.locks)
    (hrows : ∀ t task, s.world.db.tasks.find t = some task → task.status.terminal = false →
      w.db.tasks.find t = some task) : ({ s with world := w } : System).Guarded := by
  refine ⟨fun q k hk => ?_, fun q t ht => ?_⟩
  · show w.locks k = some q
    rw [hlocks]
    exact hg.lock q k hk
  · obtain ⟨task, hfind, hk, hstatus⟩ := hg.row q t ht
    exact ⟨task, hrows t task hfind hstatus, hk, hstatus⟩

theorem Guarded.hand {entry : Entry} (hg : s.Guarded) (hrelies : st.relies = none)
    (hwrites : st.writes = none) : (s.hand p id entry st).Guarded := by
  refine ⟨fun q k hk => ?_, fun q t ht => ?_⟩
  · have hk' : (update s.workers p st q).relies = some k := hk
    rw [update_apply] at hk'
    split at hk'
    · rw [hrelies] at hk'
      cases hk'
    · exact hg.lock q k hk'
  · have ht' : (update s.workers p st q).writes = some t := ht
    show Writable s.world.db (update s.workers p st q) t
    rw [update_apply] at ht' ⊢
    split at ht'
    · rw [hwrites] at ht'
      cases ht'
    · rename_i hq
      rw [if_neg hq]
      exact hg.row q t ht'

theorem read_eq (h : step config s (.read p id) = some s') :
    ∃ task, s.workers p = .idle ∧ s.world.stream id = some ⟨task, .new⟩ ∧
      s' = s.hand p id ⟨task, .pending 1⟩ (.acquiring ⟨id, task, none⟩) := by
  simp only [step] at h
  split at h
  · rename_i task hidle hentry
    exact ⟨task, hidle, hentry, (Option.some.inj h).symm⟩
  · cases h

theorem claim_eq {counted : Bool} (h : step config s (.claim p id counted) = some s') :
    ∃ task n count, s.workers p = .idle ∧ s.world.stream id = some ⟨task, .pending n⟩ ∧
      s' = s.hand p id ⟨task, .pending (n + 1)⟩ (.recovering ⟨id, task, count⟩) := by
  simp only [step] at h
  split at h
  · rename_i task n hidle hentry
    exact ⟨task, n, _, hidle, hentry, (Option.some.inj h).symm⟩
  · cases h

theorem decide_eq (h : step config s (.decide t decision reason auditId now commits) = some s') :
    ∃ db, s.world.db.decide t decision reason auditId now commits = .ok db ∧
      s' = { s with world := { s.world with db := db } } := by
  obtain ⟨db, hdb, rfl⟩ := Option.map_eq_some_iff.mp h
  exact ⟨db, toOption_eq_some.mp hdb, rfl⟩

theorem register_eq {task : DispatchTaskMessage} (h : step config s (.register task commits) = some s') :
    ∃ d db, s.world.db.begin task.taskId task.orderId task.idempotencyKey commits = .ok (d, db) ∧
      s' = { s with world := { s.world with db := db } } := by
  obtain ⟨⟨d, db⟩, hdb, rfl⟩ := Option.map_eq_some_iff.mp h
  exact ⟨d, db, toOption_eq_some.mp hdb, rfl⟩

theorem decide_find (h : db.decide t decision reason auditId now commits = .ok db') (t' : String) :
    (t' ≠ t ∧ db'.tasks.find t' = db.tasks.find t') ∨
      ∃ task task', t' = t ∧ db.tasks.find t' = some task ∧ task.status = .reviewRequired ∧
        db'.tasks.find t' = some task' ∧ task'.status = decision.status := by
  obtain ⟨task, task', dispatch, dispatch', audit, hfind, hstatus, hid, -, hstatus', -, -, -, rfl⟩ :=
    Db.decide_ok h
  by_cases ht : t' = t
  · subst ht
    refine .inr ⟨task, task', rfl, hfind, hstatus, ?_, hstatus'⟩
    show (db.tasks.replace task').find t' = some task'
    rw [Table.find_replace, if_pos hid.symm, hfind]
    rfl
  · refine .inl ⟨ht, ?_⟩
    show (db.tasks.replace task').find t' = _
    exact Table.find_replace_ne _ _ fun h => ht (h.trans hid)

/-- A careful step keeps the locks with those that rely on them. -/
theorem step_guarded {a : Action} (hg : s.Guarded) (hok : s.Careful a)
    (h : step config s a = some s') : s'.Guarded := by
  cases a with
  | register task commits =>
    obtain ⟨d, db, hbegin, rfl⟩ := register_eq h
    refine hg.world rfl fun t task₁ hfind _ => ?_
    obtain hsame | ⟨-, hnone, -⟩ := Db.begin_find hbegin t
    · exact hsame.trans hfind
    · rw [hfind] at hnone
      cases hnone
  | publish id task =>
    simp only [step] at h
    split at h
    · cases h
      exact hg.world rfl fun t task hfind _ => hfind
    · cases h
  | read p id =>
    obtain ⟨task, -, -, rfl⟩ := read_eq h
    exact hg.hand rfl rfl
  | claim p id counted =>
    obtain ⟨task, n, count, -, -, rfl⟩ := claim_eq h
    exact hg.hand rfl rfl
  | advance p o => exact advance_guarded hg hok h
  | fail p =>
    simp only [step] at h
    split at h
    · cases h
      exact hg.narrow (.failed _)
    · cases h
  | crash p =>
    simp only [step] at h
    split at h
    · cases h
      exact hg.narrow (.done _ none)
    · cases h
  | expireLock key =>
    cases h
    refine ⟨fun q k hk => ?_, hg.row⟩
    show update s.world.locks key none k = some q
    have hne : k ≠ key := by
      rintro rfl
      exact hok q hk
    rw [update_of_ne hne]
    exact hg.lock q k hk
  | decide t decision reason auditId now commits =>
    obtain ⟨db, hdb, rfl⟩ := decide_eq h
    refine hg.world rfl fun t' task hfind hstatus => ?_
    obtain ⟨-, hsame⟩ | ⟨task₁, task', -, hfind₁, hreview, -⟩ := decide_find hdb t'
    · exact hsame.trans hfind
    · rw [hfind] at hfind₁
      cases hfind₁
      rw [hreview] at hstatus
      cases hstatus

theorem Initial.guarded (h : s.Initial) : s.Guarded := by
  refine ⟨fun p k hk => ?_, fun p t ht => ?_⟩
  · rw [h p] at hk
    cases hk
  · rw [h p] at ht
    cases ht

theorem exec_guarded {s₀ : System} {run : List Action} (h₀ : s₀.Initial)
    (hok : Meets (step config) Careful s₀ run) (hrun : exec (step config) s₀ run = some s) : s.Guarded :=
  exec_invariant (fun _ _ _ hg hr hstep => step_guarded hg hr hstep) hok hrun h₀.guarded

end System

end CountyFlow.Worker
