import CountyFlow.Worker.System

/-!
# Terminal outcomes

`process_message` asks the ledger before it works and does so under the execution lock; the
dead-letter branch of `_recover_message` only probes the lock and writes the ledger without asking.
-/

namespace CountyFlow.Worker

open CountyFlow.Lib CountyFlow.Runtime

/-- The steps of the workers: deliveries, calls, failures and crashes. -/
def Action.ofWorker : Action → Bool
  | .read _ _ | .claim _ _ _ | .advance _ _ | .fail _ | .crash _ => true
  | _ => false

namespace System

variable {config : WorkerConfig}

/-- A careful worker leaves a terminal status alone. -/
theorem step_terminal {s s' : System} {a : Action} (hg : s.Guarded) (hok : s.Careful a)
    (hworker : a.ofWorker = true) (h : step config s a = some s') {t : String} {status : TaskStatus}
    (hstatus : s.status t = some status) (hterminal : status.terminal = true) :
    s'.status t = some status := by
  cases a with
  | advance p o =>
    obtain ⟨⟨st, w⟩, hstep, rfl⟩ := Option.map_eq_some_iff.mp h
    obtain ⟨task, hfind, rfl⟩ := Option.map_eq_some_iff.mp hstatus
    obtain hsame | ⟨task', hfind', -, hwrites | ⟨m, n, hst, rfl, hdlq⟩⟩ :=
      advance_row (WorkerState.step_moves hstep) hfind
    · exact Db.status_eq hsame
    · -- A writer would find the row not terminal.
      obtain ⟨task₁, hfind₁, -, hnot⟩ := hg.row p t hwrites
      rw [hfind] at hfind₁
      rw [← Option.some.inj hfind₁, hterminal] at hnot
      cases hnot
    · have hwas : task.status = .dlq := (hok m n hst).1 task.status hstatus hterminal
      rw [hwas, ← hdlq]
      exact Db.status_eq hfind'
  | read p id =>
    obtain ⟨task, -, -, rfl⟩ := read_eq h
    exact hstatus
  | claim p id counted =>
    obtain ⟨task, n, count, -, -, rfl⟩ := claim_eq h
    exact hstatus
  | fail p =>
    simp only [step] at h
    split at h
    · cases h
      exact hstatus
    · cases h
  | crash p =>
    simp only [step] at h
    split at h
    · cases h
      exact hstatus
    · cases h
  | _ => cases hworker

/-- **A terminal outcome is final for the workers.**  In every run whose steps are careful, a worker's
step in a state where a task is `APPROVED`, `REVIEW_REQUIRED`, `COMPLETED` or `DLQ` leaves it so. -/
theorem terminal_is_final {s₀ s s' : System} {run : List Action} {a : Action} {t : String}
    {status : TaskStatus} (h₀ : s₀.Initial) (hok : Meets (step config) Careful s₀ (run ++ [a]))
    (hrun : exec (step config) s₀ run = some s) (hstep : step config s a = some s')
    (hworker : a.ofWorker = true) (hstatus : s.status t = some status)
    (hterminal : status ∈ [TaskStatus.approved, .reviewRequired, .completed, .dlq]) :
    s'.status t = some status := by
  obtain ⟨hok₁, hok₂⟩ := meets_append.mp hok
  have hkind : status.terminal = true := by
    simp only [List.mem_cons, List.not_mem_nil, or_false] at hterminal
    rcases hterminal with rfl | rfl | rfl | rfl <;> rfl
  exact step_terminal (exec_guarded h₀ hok₁ hrun) (hok₂ s hrun).1 hworker hstep hstatus hkind

/-! ### A replay, and a dead letter -/

def empty : System where
  world :=
    { db := ⟨Table.empty, fun _ => none, Table.empty, []⟩
      locks := fun _ => none
      stream := fun _ => none
      deadLetters := [] }
  workers := fun _ => .idle

def exampleConfig : WorkerConfig := ⟨"worker-1", defaultRetryPolicy⟩

def exampleTask : DispatchTaskMessage := ⟨"TASK-1", 1, "key-1", "ROAD_BLOCKED"⟩

/-- The world does what is asked, and the graph the given step. -/
def smooth (graph : GraphStep) : Outcome := ⟨10, false, 0, none, graph⟩

def raising : Outcome := ⟨10, true, 0, none, .failed⟩

/-- A task is registered and published, and worker 0 runs the graph to the given audit. -/
def toVerdict (result : AuditResult) (final : FinalState) : List Action :=
  [.register exampleTask true, .publish "1-0" exampleTask, .read 0 "1-0"] ++
    List.replicate 5 (.advance 0 (smooth .failed)) ++
    [.advance 0 (smooth (.dispatch 7 .keptRoute)), .advance 0 (smooth (.audit 9 result "checked")),
      .advance 0 (smooth (.finished final))]

/-- The worker persists an approval, and the automatic publication fails. -/
def unpublishedRun : List Action :=
  toVerdict .approved ⟨none, false, some "APPROVED"⟩ ++
    List.replicate 3 (.advance 0 (smooth .failed)) ++
    [.advance 0 raising, .advance 0 (smooth .failed)]

/-- The message is claimed again, and the replay reaches the thread. -/
def toReplay : List Action :=
  .claim 1 "1-0" true :: List.replicate 4 (.advance 1 (smooth .failed))

/-- A decidable part of `Careful`: no dead letter is recorded and no lock expires. -/
def orderly (s : System) : Action → Bool
  | .advance p _ =>
    match s.workers p with
    | .recording _ (.deadLetter _) => false
    | _ => true
  | .expireLock _ => false
  | _ => true

theorem careful_of_orderly (s : System) (a : Action) (h : s.orderly a = true) : s.Careful a := by
  cases a with
  | advance p o =>
    intro m n hst
    simp [orderly, hst] at h
  | expireLock key => cases h
  | _ => trivial

theorem empty_initial : empty.Initial := fun _ => rfl

/-- A replay of an approved task leaves it approved. -/
theorem terminal_is_final_replay : ∃ s s',
    exec (step exampleConfig) empty (unpublishedRun ++ toReplay) = some s ∧
      step exampleConfig s (.advance 1 (smooth .failed)) = some s' ∧
      s.status "TASK-1" = some .approved ∧ s'.status "TASK-1" = some .approved := by
  have hx : ((exec (step exampleConfig) empty (unpublishedRun ++ toReplay)).bind fun s =>
      (step exampleConfig s (.advance 1 (smooth .failed))).map fun _ =>
        decide (s.status "TASK-1" = some .approved)) = some true := by
    decide +kernel
  have hok : Meets (step exampleConfig) (fun s a => s.orderly a = true) empty
      ((unpublishedRun ++ toReplay) ++ [.advance 1 (smooth .failed)]) := by
    decide +kernel
  obtain ⟨s, hs, hx⟩ := Option.bind_eq_some_iff.mp hx
  obtain ⟨s', hs', hx⟩ := Option.map_eq_some_iff.mp hx
  have hstatus : s.status "TASK-1" = some .approved := of_decide_eq_true hx
  exact ⟨s, s', hs, hs', hstatus, terminal_is_final empty_initial (hok.mono careful_of_orderly) hs hs'
    rfl hstatus (by decide)⟩

/-- The message is claimed a second and a third time, and the last claimant gives it up. -/
def toDeadLetter : List Action :=
  [.claim 1 "1-0" true, .crash 1, .claim 2 "1-0" true] ++
    List.replicate 5 (.advance 2 (smooth .failed))

/-- **A dead letter turns an approved task into `DLQ`.** -/
theorem approved_then_dead_lettered :
    ¬ ∀ (run : List Action) (a : Action) (s s' : System) (t : String) (status : TaskStatus),
      exec (step exampleConfig) empty run = some s → step exampleConfig s a = some s' →
      a.ofWorker = true → s.status t = some status →
      status ∈ [TaskStatus.approved, .reviewRequired, .completed, .dlq] →
      s'.status t = some status := by
  intro hterminal
  have hx : ((exec (step exampleConfig) empty (unpublishedRun ++ toDeadLetter)).bind fun s =>
      (step exampleConfig s (.advance 2 (smooth .failed))).map fun s' =>
        decide (s.status "TASK-1" = some .approved ∧ s'.status "TASK-1" = some .dlq)) =
      some true := by
    decide +kernel
  obtain ⟨s, hs, hx⟩ := Option.bind_eq_some_iff.mp hx
  obtain ⟨s', hs', hx⟩ := Option.map_eq_some_iff.mp hx
  obtain ⟨hstatus, hdlq⟩ := of_decide_eq_true hx
  have hsame := hterminal _ _ s s' "TASK-1" .approved hs hs' rfl hstatus (by decide)
  rw [hdlq] at hsame
  cases hsame

end System

end CountyFlow.Worker
