import CountyFlow.Lib.Runs
import CountyFlow.Override.Ledger

/-!
# Terminal threads

Seven methods write a runtime thread.  Six of them refuse a `TERMINAL` thread, each by a guard of
its own; `mark_terminal` does not, it only skips an event key it has seen.  So a thread that was
terminated for one outcome is terminated again for another: a second `THREAD_TERMINAL` event is
appended and `terminal_at` and `current_node` are overwritten.
-/

namespace CountyFlow.Runtime

open CountyFlow.Lib CountyFlow.Override

inductive ThreadCall where
  | promoteCheckpoint (command : PromoteCheckpoint) (commits : Bool)
  | markResumed (eventKey workerConsumer : String) (commits : Bool)
  | claimNextNode (checkpointId : String) (stateVersion : ℕ) (nextNode workerConsumer : String)
  | claimOverrideBoundary (checkpointId : String) (stateVersion : ℕ) (nextNode : String)
  | releaseOverrideBoundary (checkpointId : String) (stateVersion : ℕ) (nextNode : String)
  | promoteApplied (row : RuntimeOverride) (checkpointId : String) (sizeBytes now : ℕ)
      (commits : Bool)
  | markTerminal (eventKey workerConsumer : String) (currentNode errorCode : Option String)
      (now : ℕ) (commits : Bool)
  deriving DecidableEq, Repr

/-- What the call leaves of the thread when it returns; `none` when it raises. -/
def ThreadCall.result (t : ThreadRecord) : ThreadCall → Option ThreadRecord
  | .promoteCheckpoint command commits => (t.promoteCheckpoint command commits).toOption
  | .markResumed key w commits => (t.markResumed key w commits).toOption
  | .claimNextNode c v n w => (t.claimNextNode c v n w).toOption
  | .claimOverrideBoundary c v n => (t.claimOverrideBoundary c v n).toOption
  | .releaseOverrideBoundary c v n => (t.releaseOverrideBoundary c v n).toOption
  | .promoteApplied row c size now commits =>
    (Override.promoteApplied row t c size now commits).toOption.map Prod.snd
  | .markTerminal key w node code now commits =>
    (t.markTerminal key w node code now commits).toOption

/-- One call of a sequence: a call that raises leaves the tables as they are. -/
def callStep (t : ThreadRecord) (call : ThreadCall) : Option ThreadRecord :=
  some ((call.result t).getD t)

/-- The columns that may not change any more. -/
structure Frozen (a b : RuntimeThread) : Prop where
  status : b.status = a.status
  currentCheckpointId : b.currentCheckpointId = a.currentCheckpointId
  stateVersion : b.stateVersion = a.stateVersion
  currentNode : b.currentNode = a.currentNode
  checkpointCount : b.checkpointCount = a.checkpointCount
  resumedCount : b.resumedCount = a.resumedCount
  terminalAt : b.terminalAt = a.terminalAt

/-- How many `THREAD_TERMINAL` events the thread has. -/
def terminalEvents (t : ThreadRecord) : ℕ :=
  t.events.countP fun e => e.eventType = .threadTerminal

/-- Wherever the run finds the thread terminal, it stays frozen from there to every later state,
with exactly one terminal event. -/
def StaysFrozen (t : ThreadRecord) (calls : List ThreadCall) : Prop :=
  ∀ before between after, calls = before ++ between ++ after →
    ∀ t₁ t₂, exec callStep t before = some t₁ → exec callStep t₁ between = some t₂ →
      t₁.row.status = .terminal → Frozen t₁.row t₂.row ∧ terminalEvents t₂ = 1

/-- The call is not a `mark_terminal` that commits a new key on a terminal thread. -/
def RepeatsKey (t : ThreadRecord) : ThreadCall → Prop
  | .markTerminal key _ _ _ _ commits =>
    t.row.status = .terminal → commits = true → t.hasEvent key = true
  | _ => True

/-- A terminal thread has one terminal event, a live one none. -/
def TerminalOnce (t : ThreadRecord) : Prop :=
  terminalEvents t = if t.row.status = .terminal then 1 else 0

/-! ### One call -/

theorem Frozen.refl (a : RuntimeThread) : Frozen a a := ⟨rfl, rfl, rfl, rfl, rfl, rfl, rfl⟩

theorem terminalEvents_append (t : ThreadRecord) (row : RuntimeThread) (e : RuntimeThreadEvent) :
    terminalEvents { row := row, events := t.events ++ [e] }
      = terminalEvents t + if e.eventType = .threadTerminal then 1 else 0 := by
  simp [terminalEvents, List.countP_append, List.countP_cons]

theorem promotionEvent_ne_terminal (k : PromotionEvent) : k.eventType ≠ .threadTerminal := by
  cases k <;> decide

variable {t : ThreadRecord}

variable {t' : ThreadRecord} {call : ThreadCall}

theorem result_cases (hr : call.result t = some t') (hok : RepeatsKey t call) :
    t' = t ∨ (t.row.status ≠ .terminal ∧
      terminalEvents t' = terminalEvents t + if t'.row.status = .terminal then 1 else 0) := by
  cases call with
  | promoteCheckpoint command commits =>
    rcases ThreadRecord.promoteCheckpoint_ok (toOption_eq_some.mp hr) with
      ⟨_, h⟩ | ⟨_, hlive, _, _, _, _, rfl⟩
    · exact .inl h
    · refine .inr ⟨hlive, ?_⟩
      rw [ThreadRecord.promoted, terminalEvents_append]
      simp [ThreadRecord.checkpointEvent, promotionEvent_ne_terminal]
  | markResumed key w commits =>
    rcases ThreadRecord.markResumed_ok (toOption_eq_some.mp hr) with
      h | ⟨hlive, _, hrow, e, hev, hevents⟩
    · exact .inl h
    · refine .inr ⟨hlive, ?_⟩
      have ht' : t' = { row := t'.row, events := t.events ++ [e] } := by rw [← hevents]
      rw [ht', terminalEvents_append, hev]
      simp [hrow, hlive]
  | claimNextNode c v n w =>
    obtain ⟨hb, rfl⟩ := ThreadRecord.claimBoundary_ok (toOption_eq_some.mp hr)
    have hs := (ThreadRecord.atBoundary_iff.mp hb).1
    exact .inr ⟨by simp [hs], by simp [terminalEvents, ThreadRecord.claimed]⟩
  | claimOverrideBoundary c v n =>
    obtain ⟨hb, rfl⟩ := ThreadRecord.claimBoundary_ok (toOption_eq_some.mp hr)
    have hs := (ThreadRecord.atBoundary_iff.mp hb).1
    exact .inr ⟨by simp [hs], by simp [terminalEvents, ThreadRecord.claimed]⟩
  | releaseOverrideBoundary c v n =>
    obtain ⟨hb, rfl⟩ := ThreadRecord.releaseOverrideBoundary_ok (toOption_eq_some.mp hr)
    have hs := (ThreadRecord.atBoundary_iff.mp hb).1
    exact .inr ⟨by simp [hs], by simp [terminalEvents, ThreadRecord.released]⟩
  | promoteApplied row c size now commits =>
    obtain ⟨⟨row', t''⟩, hp, rfl⟩ := Option.map_eq_some_iff.mp hr
    rcases Override.promoteApplied_ok (toOption_eq_some.mp hp) with
      ⟨_, _, h⟩ | ⟨hprom, _, _, rfl⟩
    · exact .inl h
    · have hs := (RuntimeOverride.promotable_iff.mp hprom).2.2.1
      refine .inr ⟨by simp [hs], ?_⟩
      simp only [applyOverride]
      split
      · simp [terminalEvents]
      · rw [terminalEvents_append]
        simp
  | markTerminal key w node code now commits =>
    rcases ThreadRecord.markTerminal_ok (toOption_eq_some.mp hr) with
      ⟨_, h⟩ | ⟨hnew, hcommit, rfl⟩
    · exact .inl h
    · have hlive : t.row.status ≠ .terminal := by
        intro hterm
        have hold := hok hterm hcommit
        rw [hnew] at hold
        cases hold
      refine .inr ⟨hlive, ?_⟩
      rw [ThreadRecord.terminated, terminalEvents_append]
      simp

theorem callStep_cases (hs : callStep t call = some t') (hok : RepeatsKey t call) :
    t' = t ∨ (t.row.status ≠ .terminal ∧
      terminalEvents t' = terminalEvents t + if t'.row.status = .terminal then 1 else 0) := by
  have ht' := Option.some.inj hs
  cases hr : call.result t with
  | none =>
    rw [hr] at ht'
    exact .inl ht'.symm
  | some t₁ =>
    rw [hr] at ht'
    obtain rfl : t₁ = t' := ht'
    exact result_cases hr hok

theorem callStep_terminalOnce (hI : TerminalOnce t) (hok : RepeatsKey t call)
    (hs : callStep t call = some t') : TerminalOnce t' := by
  rcases callStep_cases hs hok with rfl | ⟨hlive, hcount⟩
  · exact hI
  · rw [TerminalOnce, if_neg hlive] at hI
    rw [TerminalOnce, hcount, hI, Nat.zero_add]

theorem callStep_frozen (hterm : t.row.status = .terminal) (hok : RepeatsKey t call)
    (hs : callStep t call = some t') : t' = t := by
  rcases callStep_cases hs hok with h | ⟨hlive, _⟩
  · exact h
  · exact absurd hterm hlive

theorem callStep_not_repeatsKey (hI : TerminalOnce t) (hbad : ¬ RepeatsKey t call) :
    t.row.status = .terminal ∧ ∃ t', callStep t call = some t' ∧ terminalEvents t' = 2 := by
  cases call with
  | markTerminal key w node code now commits =>
    simp only [RepeatsKey, Classical.not_imp, Bool.not_eq_true] at hbad
    obtain ⟨hterm, hcommit, hnew⟩ := hbad
    refine ⟨hterm, t.terminated key w node code now, ?_, ?_⟩
    · simp [callStep, ThreadCall.result, ThreadRecord.markTerminal, hnew, hcommit,
        Except.toOption]
    · rw [TerminalOnce, if_pos hterm] at hI
      rw [ThreadRecord.terminated, terminalEvents_append, hI]
      simp
  | _ => exact absurd trivial hbad

/-! ### Runs -/

theorem create_terminalOnce (taskId threadId : String) :
    TerminalOnce (ThreadRecord.create taskId threadId) := by
  simp [TerminalOnce, terminalEvents, ThreadRecord.create]

variable {calls : List ThreadCall}

theorem exec_terminal_eq (hterm : t.row.status = .terminal) (hok : Meets callStep RepeatsKey t calls)
    (hrun : exec callStep t calls = some t') : t' = t := by
  have hI := exec_invariant (I := fun u => u = t)
    (fun u call u' hu hc hs => by subst hu; exact callStep_frozen hterm hc hs) hok hrun rfl
  exact hI

theorem meets_of_staysFrozen (hI : TerminalOnce t) (hf : StaysFrozen t calls) :
    Meets callStep RepeatsKey t calls := by
  induction calls generalizing t with
  | nil => trivial
  | cons call calls ih =>
    have hok : RepeatsKey t call := by
      by_contra hbad
      obtain ⟨hterm, t', hs, htwo⟩ := callStep_not_repeatsKey hI hbad
      have hone := (hf [] [call] calls rfl t t' rfl (exec_cons_eq_some.mpr ⟨t', hs, rfl⟩) hterm).2
      omega
    refine ⟨hok, fun t' hs => ih (callStep_terminalOnce hI hok hs) ?_⟩
    intro before between after hsplit t₁ t₂ h₁ h₂ hterm
    refine hf (call :: before) between after (by rw [hsplit]; rfl) t₁ t₂ ?_ h₂ hterm
    exact exec_cons_eq_some.mpr ⟨t', hs, h₁⟩

/-- **A terminal thread is frozen exactly when terminal marks repeat their keys.**  For every
sequence of calls on a created thread: once the thread is terminal its frozen columns never change
and it has one `THREAD_TERMINAL` event, if and only if no `mark_terminal` commits a key the
terminal thread has not recorded. -/
theorem staysFrozen_iff (taskId threadId : String) (calls : List ThreadCall) :
    StaysFrozen (ThreadRecord.create taskId threadId) calls ↔
      Meets callStep RepeatsKey (ThreadRecord.create taskId threadId) calls := by
  constructor
  · exact meets_of_staysFrozen (create_terminalOnce taskId threadId)
  · intro hok before between after hsplit t₁ t₂ h₁ h₂ hterm
    rw [hsplit, List.append_assoc, meets_append] at hok
    obtain ⟨hok₁, hrest⟩ := hok
    have hok₂ := (meets_append.mp (hrest t₁ h₁)).1
    have hone : TerminalOnce t₁ :=
      exec_invariant (fun u call u' hu hc hs => callStep_terminalOnce hu hc hs) hok₁ h₁
        (create_terminalOnce taskId threadId)
    obtain rfl : t₂ = t₁ := exec_terminal_eq hterm hok₂ h₂
    refine ⟨Frozen.refl _, ?_⟩
    rw [TerminalOnce, if_pos hterm] at hone
    exact hone

/-- The worker's own keys break it: a thread terminated as `APPROVED` and later dead-lettered is
terminated twice. -/
theorem approved_then_dlq_not_frozen :
    ¬ StaysFrozen (ThreadRecord.create "task-001" "cf:dispatch:task-001")
      [.markTerminal "terminal:APPROVED" "worker-1" (some "audit") none 10 true,
        .markTerminal "terminal:DLQ" "worker-2" (some "audit")
          (some "MAX_DELIVERY_ATTEMPTS_EXCEEDED") 20 true] := by
  intro h
  have htwice := (h [_] [_] [] rfl _ _ rfl rfl rfl).2
  revert htwice
  decide

end CountyFlow.Runtime
