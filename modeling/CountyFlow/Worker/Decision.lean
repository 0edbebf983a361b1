import CountyFlow.Worker.Outcomes

/-!
# Review decisions

A reviewer decides a task that waits in `REVIEW_REQUIRED`.  An approval leaves the task `APPROVED`,
which the workers know as terminal; a rejection leaves it `REJECTED`, which they do not: `begin` then
answers that the task is in progress, and the worker reconciles it from whichever audit row the
database returns, or runs the graph again.
-/

namespace CountyFlow.Worker

open CountyFlow.Lib CountyFlow.Runtime Function

/-- The task whose graph the worker runs. -/
def WorkerState.executes : WorkerState → Option String
  | .running m _ => some m.task.taskId
  | _ => none

variable {t : String}

theorem WorkerState.writes_of_executes {st : WorkerState} (h : st.executes = some t) :
    st.writes = some t := by
  cases st with
  | running m state => exact h
  | _ => cases h

variable {dispatch : Dispatch}

theorem Db.executeDispatch_find {db : Db} {t' : String} {id : ℕ} {status : DispatchStatus}
    (h : db.dispatches.find t = some dispatch) :
    (db.executeDispatch t' id status).dispatches.find t = some dispatch := by
  unfold executeDispatch
  split
  · rename_i dispatches _ hadd
    show dispatches.find t = some dispatch
    rw [Table.find_add hadd]
    split
    · rename_i ht
      have hnone := Table.find_none_of_add hadd
      rw [← ht, h] at hnone
      cases hnone
    · exact h
  · exact h

variable {p : ℕ} {w w' : World} {s s' : System} {decision : ReviewDecision}

namespace System

variable {config : WorkerConfig}

/-- Nobody begins or dead-letters a rejected task. -/
def Respects (s : System) (a : Action) : Prop :=
  s.Careful a ∧ ∀ p o, a = .advance p o →
    (∀ m, s.workers p = .beginning m → s.status m.task.taskId ≠ some .rejected) ∧
      ∀ m n, s.workers p = .recording m (.deadLetter n) → s.status m.task.taskId ≠ some .rejected

/-- The decision stands, and no worker is in a position to change it. -/
structure Decided (s : System) (t : String) (decision : ReviewDecision) : Prop where
  status : s.status t = some decision.status
  dispatch : ∃ dispatch, s.world.db.dispatches.find t = some dispatch ∧
    dispatch.status = decision.dispatchStatus
  idle : ∀ p, (s.workers p).writes ≠ some t

theorem writer_began {st st' : WorkerState} (h : WorkerState.Moves config p w st st' w')
    (ht : st'.writes = some t) : st.writes = some t ∨ ∃ m, st = .beginning m ∧ t = m.task.taskId := by
  cases h with
  | quiet hn => exact .inl (hn.writes t ht)
  | probed hfree => cases ht
  | acquired hfree => cases ht
  | released hn hnone => exact .inl (hn.writes t ht)
  | @began m d db hbegin =>
    refine .inr ⟨m, rfl, ?_⟩
    unfold WorkerState.afterBegin at ht
    split at ht
    · cases ht
    · exact (Option.some.inj ht).symm
    · exact (Option.some.inj ht).symm
  | started hmark => exact .inl ht
  | @recorded m path now commits db hmark => cases path <;> cases ht
  | @steered m st state op commits r r' hst hr hop =>
    rcases hst with rfl | rfl
    · exact .inl ht
    · exact .inl ht
  | @terminated m path node now commits r r' hr hterm =>
    exact .inl ((WorkerState.Narrows.afterTerminal m path node).writes t ht)
  | proposed => exact .inl ht
  | audited => exact .inl ht
  | appended => cases ht
  | acked hn => exact .inl (hn.writes t ht)

theorem moves_dispatch {st st' : WorkerState} (h : WorkerState.Moves config p w st st' w')
    (hfind : w.db.dispatches.find t = some dispatch) : w'.db.dispatches.find t = some dispatch := by
  cases h with
  | released hn hnone =>
    unfold World.release
    split <;> exact hfind
  | @began m d db hbegin =>
    obtain ⟨task, rfl, -⟩ | ⟨tasks, threadId, -, -, -, -, rfl⟩ := Db.begin_ok hbegin
    · exact hfind
    · exact hfind
  | started hmark =>
    obtain ⟨task, task', -, -, -, -, rfl⟩ := Db.setStatus_ok hmark
    exact hfind
  | recorded hmark =>
    obtain ⟨task, task', -, -, -, -, rfl⟩ := Db.setStatus_ok hmark
    exact hfind
  | proposed => exact Db.executeDispatch_find hfind
  | audited =>
    show (w.db.persistAudit _ _ _ _).dispatches.find t = _
    rw [Db.persistAudit_dispatches]
    exact hfind
  | acked hn =>
    unfold World.ack
    split <;> exact hfind
  | _ => exact hfind

theorem advance_decided {o : Outcome} (hd : s.Decided t decision) (hok : s.Respects (.advance p o))
    (h : step config s (.advance p o) = some s') : s'.Decided t decision := by
  obtain ⟨⟨st, w⟩, hstep, rfl⟩ := Option.map_eq_some_iff.mp h
  have hm := WorkerState.step_moves hstep
  obtain ⟨hcareful, hrespects⟩ := hok
  obtain ⟨hbegins, hletters⟩ := hrespects p o rfl
  obtain ⟨task, hfind, hstatus⟩ := Option.map_eq_some_iff.mp hd.status
  obtain ⟨dispatch, hdispatch, hdstatus⟩ := hd.dispatch
  refine ⟨?_, ⟨dispatch, moves_dispatch hm hdispatch, hdstatus⟩, fun q hq => ?_⟩
  · obtain hsame | ⟨task', -, -, hwrites | ⟨m, n, hst, rfl, -⟩⟩ := advance_row hm hfind
    · rw [← hstatus]
      exact Db.status_eq hsame
    · exact absurd hwrites (hd.idle p)
    · cases decision with
      | approve =>
        have hdlq := (hcareful m n hst).1 .approved hd.status rfl
        cases hdlq
      | reject => exact absurd hd.status (hletters m n hst)
  · have hq' : (update s.workers p st q).writes = some t := hq
    by_cases hqp : q = p
    · subst hqp
      rw [update_self] at hq'
      obtain hold | ⟨m, hst, rfl⟩ := writer_began hm hq'
      · exact hd.idle q hold
      · cases decision with
        | reject => exact hbegins m hst hd.status
        | approve =>
          -- `begin` finds the task `APPROVED`, so that the worker replays it.
          have hw := moves_writable hm (fun hold => absurd hold (hd.idle q)) hq'
          obtain ⟨task', hfind', -, hnot⟩ := hw
          obtain hsame | ⟨-, -, -, hwrites | ⟨m', n, hst', -⟩⟩ := advance_row hm hfind
          · rw [hsame] at hfind'
            rw [← Option.some.inj hfind', hstatus] at hnot
            cases hnot
          · exact hd.idle q hwrites
          · rw [hst] at hst'
            cases hst'
    · rw [update_of_ne hqp] at hq'
      exact hd.idle q hq'

/-- A decision on a task stands through every step that respects it. -/
theorem step_decided {a : Action} (hd : s.Decided t decision) (hok : s.Respects a)
    (h : step config s a = some s') : s'.Decided t decision := by
  cases a with
  | register task commits =>
    obtain ⟨d, db, hbegin, rfl⟩ := register_eq h
    obtain ⟨row, hfind, hstatus⟩ := Option.map_eq_some_iff.mp hd.status
    refine ⟨?_, ?_, hd.idle⟩
    · obtain hsame | ⟨-, hnone, -⟩ := Db.begin_find hbegin t
      · rw [← hstatus]
        exact Db.status_eq (hsame.trans hfind)
      · rw [hfind] at hnone
        cases hnone
    · obtain ⟨task₁, rfl, -⟩ | ⟨tasks, threadId, -, -, -, -, rfl⟩ := Db.begin_ok hbegin
      · exact hd.dispatch
      · exact hd.dispatch
  | publish id task =>
    simp only [step] at h
    split at h
    · cases h
      exact ⟨hd.status, hd.dispatch, hd.idle⟩
    · cases h
  | read p id =>
    obtain ⟨task, -, -, rfl⟩ := read_eq h
    refine ⟨hd.status, hd.dispatch, fun q hq => ?_⟩
    have hq' : (update s.workers p _ q).writes = some t := hq
    rw [update_apply] at hq'
    split at hq'
    · cases hq'
    · exact hd.idle q hq'
  | claim p id counted =>
    obtain ⟨task, n, count, -, -, rfl⟩ := claim_eq h
    refine ⟨hd.status, hd.dispatch, fun q hq => ?_⟩
    have hq' : (update s.workers p _ q).writes = some t := hq
    rw [update_apply] at hq'
    split at hq'
    · cases hq'
    · exact hd.idle q hq'
  | advance p o => exact advance_decided hd hok h
  | fail p =>
    simp only [step] at h
    split at h
    · cases h
      refine ⟨hd.status, hd.dispatch, fun q hq => ?_⟩
      have hq' : (update s.workers p _ q).writes = some t := hq
      rw [update_apply] at hq'
      split at hq'
      · exact hd.idle p ((WorkerState.Narrows.failed _).writes t hq')
      · exact hd.idle q hq'
    · cases h
  | crash p =>
    simp only [step] at h
    split at h
    · cases h
      refine ⟨hd.status, hd.dispatch, fun q hq => ?_⟩
      have hq' : (update s.workers p _ q).writes = some t := hq
      rw [update_apply] at hq'
      split at hq'
      · cases hq'
      · exact hd.idle q hq'
    · cases h
  | expireLock key =>
    cases h
    exact ⟨hd.status, hd.dispatch, hd.idle⟩
  | decide t' decision' reason auditId now commits =>
    obtain ⟨db, hdb, rfl⟩ := decide_eq h
    obtain ⟨row, hfind, hstatus⟩ := Option.map_eq_some_iff.mp hd.status
    obtain ⟨dispatch, hdispatch, hdstatus⟩ := hd.dispatch
    obtain ⟨hne, hsame⟩ | ⟨task, task', -, hfind₁, hreview, -⟩ := decide_find hdb t
    · refine ⟨?_, ⟨dispatch, ?_, hdstatus⟩, hd.idle⟩
      · rw [← hstatus]
        exact Db.status_eq (hsame.trans hfind)
      · obtain ⟨-, -, -, dispatch', -, -, -, -, -, -, -, hid, -, rfl⟩ := Db.decide_ok hdb
        show (s.world.db.dispatches.replace dispatch').find t = some dispatch
        rw [Table.find_replace_ne _ _ fun hd => hne (hd.trans hid)]
        exact hdispatch
    · -- A task that has been decided does not wait for review.
      rw [hfind] at hfind₁
      rw [← Option.some.inj hfind₁, hstatus] at hreview
      cases decision <;> cases hreview

theorem decide_decided (hg : s.Guarded) {reason : Option String} {auditId now : ℕ} {commits : Bool}
    (h : step config s (.decide t decision reason auditId now commits) = some s') :
    s'.Decided t decision := by
  obtain ⟨db, hdb, rfl⟩ := decide_eq h
  obtain ⟨hne, -⟩ | ⟨task, task', -, hfind, hreview, hfind', hstatus⟩ := decide_find hdb t
  · exact absurd rfl hne
  · refine ⟨?_, ?_, fun p hp => ?_⟩
    · rw [← hstatus]
      exact Db.status_eq hfind'
    · obtain ⟨-, -, dispatch, dispatch', -, -, -, -, -, -, hdispatch, hid, hdstatus, rfl⟩ :=
        Db.decide_ok hdb
      refine ⟨dispatch', ?_, hdstatus⟩
      show (s.world.db.dispatches.replace dispatch').find t = some dispatch'
      rw [Table.find_replace, if_pos hid.symm, hdispatch]
      rfl
    · obtain ⟨task₁, hfind₁, -, hnot⟩ := hg.row p t hp
      rw [hfind] at hfind₁
      rw [← Option.some.inj hfind₁, hreview] at hnot
      cases hnot

/-- **A review decision stands.**  After a decision, in every run whose steps respect it, the task and
its dispatch keep the decided status and nobody runs the graph of the task. -/
theorem decision_stands {s₀ s s₁ s₂ : System} {run more : List Action} {t : String}
    {decision : ReviewDecision} {reason : Option String} {auditId now : ℕ} {commits : Bool} (h₀ : s₀.Initial)
    (hok : Meets (step config) Respects s₀
      (run ++ .decide t decision reason auditId now commits :: more))
    (hrun : exec (step config) s₀ run = some s)
    (hdecide : step config s (.decide t decision reason auditId now commits) = some s₁)
    (hmore : exec (step config) s₁ more = some s₂) :
    s₂.status t = some decision.status ∧
      (∃ dispatch, s₂.world.db.dispatches.find t = some dispatch ∧
        dispatch.status = decision.dispatchStatus) ∧
      ∀ p, (s₂.workers p).executes ≠ some t := by
  obtain ⟨hok₁, hok₂⟩ := meets_append.mp hok
  have hg := exec_guarded h₀ (hok₁.mono fun _ _ h => h.1) hrun
  have hd : s₂.Decided t decision := exec_invariant (I := fun s => s.Decided t decision)
    (fun _ _ _ hd hr hstep => step_decided hd hr hstep) ((hok₂ s hrun).2 s₁ hdecide) hmore
    (decide_decided hg hdecide)
  exact ⟨hd.status, hd.dispatch, fun p hp => hd.idle p (WorkerState.writes_of_executes hp)⟩

/-! ### An approval, and a rejection -/

/-- The worker persists that the task requires a review, and the acknowledgement fails. -/
def unreviewedRun : List Action :=
  toVerdict .reviewRequired ⟨none, true, some "REVIEW_REQUIRED"⟩ ++
    List.replicate 5 (.advance 0 (smooth .failed)) ++
    [.advance 0 raising, .advance 0 (smooth .failed)]

def reviewed (decision : ReviewDecision) : Action :=
  .decide "TASK-1" decision (some "checked by hand") 10 20 true

/-- The message is claimed again and processed. -/
def redelivered (n : ℕ) : List Action :=
  .claim 1 "1-0" true :: List.replicate n (.advance 1 (smooth .failed))

/-- A decidable part of `Respects`. -/
def deferential (s : System) (a : Action) : Bool :=
  s.orderly a && match a with
    | .advance p _ =>
      match s.workers p with
      | .beginning m => s.status m.task.taskId ≠ some .rejected
      | _ => true
    | _ => true

theorem respects_of_deferential (s : System) (a : Action) (h : s.deferential a = true) : s.Respects a := by
  obtain ⟨horderly, hbegin⟩ := Bool.and_eq_true_iff.mp h
  refine ⟨careful_of_orderly s a horderly, ?_⟩
  rintro p o rfl
  refine ⟨fun m hst => ?_, fun m n hst => ?_⟩
  · simpa [hst] using hbegin
  · simp [orderly, hst] at horderly

/-- A redelivery after an approval leaves the task and its dispatch approved. -/
theorem decision_stands_approval : ∃ s₂,
    exec (step exampleConfig) empty (unreviewedRun ++ reviewed .approve :: redelivered 8) = some s₂ ∧
      s₂.status "TASK-1" = some .approved ∧ ∀ p, (s₂.workers p).executes ≠ some "TASK-1" := by
  have hx : ((exec (step exampleConfig) empty unreviewedRun).bind fun s =>
      (step exampleConfig s (reviewed .approve)).bind fun s₁ =>
        (exec (step exampleConfig) s₁ (redelivered 8)).map fun _ => true) = some true := by
    decide +kernel
  have hok : Meets (step exampleConfig) (fun s a => s.deferential a = true) empty
      (unreviewedRun ++ reviewed .approve :: redelivered 8) := by
    decide +kernel
  obtain ⟨s, hs, hx⟩ := Option.bind_eq_some_iff.mp hx
  obtain ⟨s₁, hs₁, hx⟩ := Option.bind_eq_some_iff.mp hx
  obtain ⟨s₂, hs₂, -⟩ := Option.map_eq_some_iff.mp hx
  obtain ⟨hstatus, -, hidle⟩ :=
    decision_stands empty_initial (hok.mono respects_of_deferential) hs hs₁ hs₂
  exact ⟨s₂, exec_append_eq_some.mpr ⟨s, hs, exec_cons_eq_some.mpr ⟨s₁, hs₁, hs₂⟩⟩, hstatus, hidle⟩

/-- **A redelivery after a rejection makes the task `REVIEW_REQUIRED` again.** -/
theorem rejection_undone :
    ¬ ∀ (run more : List Action) (s s₁ s₂ : System) (t : String) (decision : ReviewDecision)
        (reason : Option String) (auditId now : ℕ),
      exec (step exampleConfig) empty run = some s →
      step exampleConfig s (.decide t decision reason auditId now true) = some s₁ →
      (∀ a ∈ more, a.ofWorker = true) → exec (step exampleConfig) s₁ more = some s₂ →
      s₂.status t = some decision.status := by
  intro hstands
  have hx : ((exec (step exampleConfig) empty unreviewedRun).bind fun s =>
      (step exampleConfig s (reviewed .reject)).bind fun s₁ =>
        (exec (step exampleConfig) s₁ (redelivered 7)).map fun s₂ =>
          decide (s₂.status "TASK-1" = some .reviewRequired)) = some true := by
    decide +kernel
  obtain ⟨s, hs, hx⟩ := Option.bind_eq_some_iff.mp hx
  obtain ⟨s₁, hs₁, hx⟩ := Option.bind_eq_some_iff.mp hx
  obtain ⟨s₂, hs₂, hx⟩ := Option.map_eq_some_iff.mp hx
  have hreview : s₂.status "TASK-1" = some .reviewRequired := of_decide_eq_true hx
  have hsame := hstands _ _ s s₁ s₂ "TASK-1" .reject _ _ _ hs hs₁ (by decide) hs₂
  rw [hreview] at hsame
  cases hsame

end System

end CountyFlow.Worker
