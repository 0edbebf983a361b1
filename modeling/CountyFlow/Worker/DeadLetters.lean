import CountyFlow.Worker.Acknowledge

/-!
# Dead letters

A message whose deliveries are used up is moved to the dead-letter stream.  `_recover_message` asks
for the execution lock first, and gives it back before it writes: `_execution_is_active` only probes.
The append and the acknowledgement of `move_to_dlq` are two commands, and both happen without the lock.
-/

namespace CountyFlow.Worker

open CountyFlow.Lib CountyFlow.Runtime Function

/-- The message whose dead letter the worker has appended and not yet acknowledged. -/
def WorkerState.closing : WorkerState → Option String
  | .acking m (.deadLetter _) => some m.messageId
  | _ => none

variable {id : String}

namespace World

/-- The entry was delivered and waits for an acknowledgement. -/
def Pending (w : World) (id : String) : Prop := ∃ task n, w.stream id = some ⟨task, .pending n⟩

def Acknowledged (w : World) (id : String) : Prop := ∃ task, w.stream id = some ⟨task, .acknowledged⟩

def letters (w : World) (id : String) : List DeadLetter :=
  w.deadLetters.filter fun letter => letter.originalMessageId = id

variable {w : World}

theorem ack_pending (h : (w.ack id).1 = true) : w.Pending id ∧ (w.ack id).2.Acknowledged id := by
  unfold ack at h ⊢
  split at h
  · rename_i task n hentry
    exact ⟨⟨task, n, hentry⟩, task, update_self _ _ _⟩
  · cases h

theorem Pending.ack (h : w.Pending id) : (w.ack id).2.Acknowledged id := by
  obtain ⟨task, n, hentry⟩ := h
  refine ⟨task, ?_⟩
  unfold World.ack
  rw [hentry]
  exact update_self _ _ _

theorem Acknowledged.ack (h : w.Acknowledged id) (other : String) : (w.ack other).2.Acknowledged id := by
  obtain ⟨task, hentry⟩ := h
  obtain hsame | ⟨task₁, n, -, hentry₁, -⟩ := w.ack_stream other id
  · exact ⟨task, hsame.trans hentry⟩
  · rw [hentry] at hentry₁
    cases hentry₁

theorem Pending.ack_or (h : w.Pending id) (other : String) :
    (w.ack other).2.Pending id ∨ (w.ack other).2.Acknowledged id := by
  obtain ⟨task, n, hentry⟩ := h
  obtain hsame | ⟨task₁, n₁, rfl, -, hack⟩ := w.ack_stream other id
  · exact .inl ⟨task, n, hsame.trans hentry⟩
  · exact .inr ⟨task₁, hack⟩

theorem letters_append (w : World) (letter : DeadLetter) (id : String) :
    ({ w with deadLetters := w.deadLetters ++ [letter] } : World).letters id =
      w.letters id ++ if letter.originalMessageId = id then [letter] else [] := by
  unfold letters
  rw [List.filter_append]
  refine congrArg _ ?_
  by_cases h : letter.originalMessageId = id
  · rw [if_pos h]
    exact List.filter_cons_of_pos (decide_eq_true h)
  · rw [if_neg h]
    exact List.filter_cons_of_neg (by simpa using h)

theorem ack_letters (w : World) (other id : String) : (w.ack other).2.letters id = w.letters id := by
  unfold ack
  split <;> rfl

end World

/-! ### The steps of a worker -/

namespace WorkerState

variable {config : WorkerConfig} {p : ℕ} {o : Outcome} {w w' : World} {st st' : WorkerState}

/-- A dead letter comes from a call that appends it. -/
theorem step_letters (h : step config p o w st = some (st', w')) (id : String) :
    w'.letters id = w.letters id ∨
      ∃ m n letter, st = .appending m n ∧ o.raises = false ∧ st' = .acking m (.deadLetter n) ∧
        w'.stream = w.stream ∧ m.messageId = id ∧ w'.letters id = w.letters id ++ [letter] := by
  have hmove := step_moves h
  cases hmove with
  | released hn hnone =>
    refine .inl ?_
    unfold World.release
    split <;> rfl
  | acked hn => exact .inl (w.ack_letters _ id)
  | @appended m n letter₀ =>
    simp only [step] at h
    split at h
    · cases h
    · rename_i hraises
      have hw := congrArg World.deadLetters (Prod.mk.inj (Option.some.inj h)).2
      obtain rfl := List.singleton_inj.mp (List.append_cancel_left hw)
      rw [World.letters_append]
      by_cases hid : m.messageId = id
      · rw [if_pos hid]
        exact .inr ⟨m, n, _, rfl, Bool.eq_false_iff.mpr hraises, rfl, rfl, hid, rfl⟩
      · rw [if_neg hid, List.append_nil]
        exact .inl rfl
  | _ => exact .inl rfl

theorem step_closing (h : step config p o w st = some (st', w')) (hst : st.closing = some id)
    (hraises : o.raises = false) : w'.stream = (w.ack id).2.stream := by
  unfold closing at hst
  split at hst
  · rename_i m n
    cases hst
    simp only [step, hraises] at h
    obtain ⟨-, hw⟩ := Prod.mk.inj (Option.some.inj h)
    rw [← hw]
  · cases hst

end WorkerState

variable {s s' : System} {a : Action}

namespace System

variable {config : WorkerConfig}

/-- A dead letter is appended only for a message that is still pending and that no other worker is
about to acknowledge after an append of its own; between an append and its acknowledgement the worker
is not interrupted, and no other acknowledges the message with an outcome. -/
def Undivided (s : System) : Action → Prop
  | .advance p o =>
    (∀ m n, s.workers p = .appending m n → o.raises = false →
      s.world.Pending m.messageId ∧ ∀ q, (s.workers q).closing ≠ some m.messageId) ∧
    ∀ m path, s.workers p = .acking m path →
      ((s.workers p).closing = some m.messageId → o.raises = false) ∧
      (path.status = .approved ∨ path.status = .reviewRequired → o.raises = false →
        ∀ q, (s.workers q).closing ≠ some m.messageId)
  | .fail p | .crash p => (s.workers p).closing = none
  | _ => True

/-- The step acknowledges the message with `APPROVED` or `REVIEW_REQUIRED`. -/
def Completes (s : System) (a : Action) (id : String) : Prop :=
  ∃ p o m path, a = .advance p o ∧ s.workers p = .acking m path ∧ m.messageId = id ∧
    (path.status = .approved ∨ path.status = .reviewRequired) ∧ o.raises = false ∧
    (s.world.ack id).1 = true

/-- No dead letter, or a single one whose message is acknowledged or about to be. -/
def Single (s : System) (id : String) : Prop :=
  s.world.letters id = [] ∨
    ((s.world.letters id).length = 1 ∧ (s.world.Acknowledged id ∨
      (s.world.Pending id ∧ ∃ q, (s.workers q).closing = some id)))

/-- Acknowledged, and no dead letter. -/
def Completed (s : System) (id : String) : Prop :=
  s.world.Acknowledged id ∧ s.world.letters id = []

/-! ### One step -/

/-- What is not a worker's step adds no dead letter and takes no entry back. -/
theorem other_step (hok : s.Undivided a) (h : step config s a = some s') (hother : ∀ p o, a ≠ .advance p o)
    (id : String) :
    s'.world.letters id = s.world.letters id ∧ (s.world.Acknowledged id → s'.world.Acknowledged id) ∧
      (s.world.Pending id → s'.world.Pending id) ∧
      ((∃ q, (s.workers q).closing = some id) → ∃ q, (s'.workers q).closing = some id) := by
  have hworkers : ∀ (p : ℕ) (st : WorkerState), (s.workers p).closing = none →
      (∃ q, (s.workers q).closing = some id) →
      ∃ q, (update s.workers p st q).closing = some id := by
    rintro p st hp ⟨q, hq⟩
    refine ⟨q, ?_⟩
    have hne : q ≠ p := by
      rintro rfl
      rw [hp] at hq
      cases hq
    rw [update_of_ne hne]
    exact hq
  cases a with
  | register task commits =>
    obtain ⟨d, db, -, rfl⟩ := register_eq h
    exact ⟨rfl, fun hk => hk, fun hk => hk, fun hk => hk⟩
  | publish id' task =>
    simp only [step] at h
    split at h
    · rename_i hnone
      cases h
      have hne : ∀ entry, s.world.stream id = some entry → id ≠ id' := by
        rintro entry hentry rfl
        rw [hnone] at hentry
        cases hentry
      refine ⟨rfl, ?_, ?_, fun hk => hk⟩
      · rintro ⟨task', hentry⟩
        exact ⟨task', (update_of_ne (hne _ hentry) _ _).trans hentry⟩
      · rintro ⟨task', n, hentry⟩
        exact ⟨task', n, (update_of_ne (hne _ hentry) _ _).trans hentry⟩
    · cases h
  | read p id' =>
    obtain ⟨task, hidle, hentry, rfl⟩ := read_eq h
    have hne : ∀ task' d, s.world.stream id = some ⟨task', d⟩ → d ≠ .new → id ≠ id' := by
      rintro task' d hentry' hd rfl
      rw [hentry] at hentry'
      exact hd (Entry.mk.inj (Option.some.inj hentry')).2.symm
    refine ⟨rfl, ?_, ?_, hworkers p _ (by rw [hidle]; rfl)⟩
    · rintro ⟨task', hentry'⟩
      exact ⟨task', (update_of_ne (hne _ _ hentry' (by decide)) _ _).trans hentry'⟩
    · rintro ⟨task', n, hentry'⟩
      exact ⟨task', n, (update_of_ne (hne _ _ hentry' (by simp)) _ _).trans hentry'⟩
  | claim p id' counted =>
    obtain ⟨task, n, count, hidle, hentry, rfl⟩ := claim_eq h
    refine ⟨rfl, ?_, ?_, hworkers p _ (by rw [hidle]; rfl)⟩
    · rintro ⟨task', hentry'⟩
      have hne : id ≠ id' := by
        rintro rfl
        rw [hentry] at hentry'
        cases hentry'
      exact ⟨task', (update_of_ne hne _ _).trans hentry'⟩
    · rintro ⟨task', n', hentry'⟩
      by_cases hid : id = id'
      · rw [hid]
        exact ⟨task, n + 1, update_self _ _ _⟩
      · exact ⟨task', n', (update_of_ne hid _ _).trans hentry'⟩
  | advance p o => exact absurd rfl (hother p o)
  | fail p =>
    simp only [step] at h
    split at h
    · cases h
      exact ⟨rfl, fun hk => hk, fun hk => hk, hworkers p _ hok⟩
    · cases h
  | crash p =>
    simp only [step] at h
    split at h
    · cases h
      exact ⟨rfl, fun hk => hk, fun hk => hk, hworkers p _ hok⟩
    · cases h
  | expireLock key =>
    cases h
    exact ⟨rfl, fun hk => hk, fun hk => hk, fun hk => hk⟩
  | decide t decision reason auditId now commits =>
    obtain ⟨db, -, rfl⟩ := decide_eq h
    exact ⟨rfl, fun hk => hk, fun hk => hk, fun hk => hk⟩

variable {p : ℕ} {w w' : World} {st st' : WorkerState}

theorem moves_acknowledged (h : WorkerState.Moves config p w st st' w')
    (hack : w.Acknowledged id) : w'.Acknowledged id := by
  obtain hsame | ⟨m, path, -, rfl⟩ := h.stream
  · obtain ⟨task, hentry⟩ := hack
    exact ⟨task, by rw [hsame]; exact hentry⟩
  · exact hack.ack m.messageId

theorem moves_pending (h : WorkerState.Moves config p w st st' w') (hp : w.Pending id) :
    w'.Pending id ∨ w'.Acknowledged id := by
  obtain hsame | ⟨m, path, -, rfl⟩ := h.stream
  · obtain ⟨task, n, hentry⟩ := hp
    exact .inl ⟨task, n, by rw [hsame]; exact hentry⟩
  · exact hp.ack_or m.messageId

/-- An undivided step leaves a message with one dead letter at most. -/
theorem step_single (hs : s.Single id) (hok : s.Undivided a)
    (h : step config s a = some s') : s'.Single id := by
  by_cases hother : ∀ p o, a ≠ .advance p o
  · obtain ⟨hletters, hack, hpending, hclosing⟩ := other_step hok h hother id
    unfold Single
    rw [hletters]
    rcases hs with hnil | ⟨hone, hdone | ⟨hp, hq⟩⟩
    · exact .inl hnil
    · exact .inr ⟨hone, Or.inl (hack hdone)⟩
    · exact .inr ⟨hone, Or.inr ⟨hpending hp, hclosing hq⟩⟩
  · obtain ⟨p, o, rfl⟩ : ∃ p o, a = .advance p o := by
      by_contra hno
      exact hother fun p o ha => hno ⟨p, o, ha⟩
    obtain ⟨⟨st, w⟩, hstep, rfl⟩ := Option.map_eq_some_iff.mp h
    have hm := WorkerState.step_moves hstep
    obtain hsame | ⟨m, n, letter, hst, hraises, rfl, hstream, rfl, happend⟩ :=
      WorkerState.step_letters hstep id
    · show w.letters id = [] ∨ _
      rw [hsame]
      rcases hs with hnil | ⟨hone, hdone | ⟨hp, q, hq⟩⟩
      · exact .inl hnil
      · exact .inr ⟨hone, Or.inl (moves_acknowledged hm hdone)⟩
      · refine .inr ⟨hone, ?_⟩
        by_cases hqp : q = p
        · -- the worker that appended it now acknowledges it
          subst hqp
          refine .inl ?_
          have hraises : o.raises = false := by
            have hq' := hq
            unfold WorkerState.closing at hq'
            split at hq'
            · rename_i m n hst
              cases hq'
              exact (hok.2 m _ hst).1 hq
            · cases hq'
          obtain ⟨task, hentry⟩ := hp.ack
          exact ⟨task, by rw [WorkerState.step_closing hstep hq hraises]; exact hentry⟩
        · rcases moves_pending hm hp with hp' | hdone
          · refine .inr ⟨hp', q, ?_⟩
            show (update s.workers p st q).closing = some id
            rw [update_of_ne hqp]
            exact hq
          · exact .inl hdone
    · obtain ⟨⟨task, k, hentry⟩, hnone⟩ := hok.1 m n hst hraises
      have hnil : s.world.letters m.messageId = [] := by
        rcases hs with hnil | ⟨-, ⟨task', hentry'⟩ | ⟨-, q, hq⟩⟩
        · exact hnil
        · rw [hentry] at hentry'
          cases hentry'
        · exact absurd hq (hnone q)
      refine .inr ⟨?_, Or.inr ⟨⟨task, k, ?_⟩, p, ?_⟩⟩
      · show (w.letters m.messageId).length = 1
        rw [happend, hnil]
        rfl
      · show w.stream m.messageId = _
        rw [hstream]
        exact hentry
      · show (update s.workers p _ p).closing = _
        rw [update_self]
        rfl

theorem step_completed (hs : s.Completed id) (hok : s.Undivided a)
    (h : step config s a = some s') : s'.Completed id := by
  obtain ⟨hdone, hnil⟩ := hs
  by_cases hother : ∀ p o, a ≠ .advance p o
  · obtain ⟨hletters, hack, -, -⟩ := other_step hok h hother id
    exact ⟨hack hdone, hletters.trans hnil⟩
  · obtain ⟨p, o, rfl⟩ : ∃ p o, a = .advance p o := by
      by_contra hno
      exact hother fun p o ha => hno ⟨p, o, ha⟩
    obtain ⟨⟨st, w⟩, hstep, rfl⟩ := Option.map_eq_some_iff.mp h
    have hm := WorkerState.step_moves hstep
    refine ⟨moves_acknowledged hm hdone, ?_⟩
    obtain hsame | ⟨m, n, letter, hst, hraises, -, -, rfl, -⟩ := WorkerState.step_letters hstep id
    · exact hsame.trans hnil
    · obtain ⟨⟨task, k, hentry⟩, -⟩ := hok.1 m n hst hraises
      obtain ⟨task', hentry'⟩ := hdone
      rw [hentry] at hentry'
      cases hentry'

theorem completes_completed (hs : s.Single id) (hok : s.Undivided a) (h : step config s a = some s')
    (hc : s.Completes a id) : s'.Completed id := by
  obtain ⟨p, o, m, path, rfl, hst, rfl, hstatus, hraises, hack⟩ := hc
  obtain ⟨⟨task, n, hentry⟩, hdone⟩ := World.ack_pending hack
  have hnil : s.world.letters m.messageId = [] := by
    rcases hs with hnil | ⟨-, ⟨task', hentry'⟩ | ⟨-, q, hq⟩⟩
    · exact hnil
    · rw [hentry] at hentry'
      cases hentry'
    · exact absurd hq ((hok.2 m path hst).2 hstatus hraises q)
  obtain ⟨⟨st, w⟩, hstep, rfl⟩ := Option.map_eq_some_iff.mp h
  rw [hst] at hstep
  have hw : w = (s.world.ack m.messageId).2 := by
    cases path with
    | deadLetter k => simp [Path.status] at hstatus
    | _ =>
      simp only [WorkerState.step, hraises] at hstep
      exact (Prod.mk.inj (Option.some.inj hstep)).2.symm
  rw [hw]
  exact ⟨hdone, (s.world.ack_letters _ _).trans hnil⟩

/-! ### Whole runs -/

/-- **A message is completed or dead-lettered, never both.**  In every run whose steps are undivided,
a message has at most one dead letter, and none once a worker has acknowledged it with `APPROVED` or
`REVIEW_REQUIRED`. -/
theorem dead_letter_excludes_completion {s₀ s : System} {run : List Action} {id : String}
    (h₀ : s₀.world.letters id = []) (hok : Meets (step config) Undivided s₀ run)
    (hrun : exec (step config) s₀ run = some s) :
    (s.world.letters id).length ≤ 1 ∧
      ∀ before a after s₁, run = before ++ a :: after → exec (step config) s₀ before = some s₁ →
        s₁.Completes a id → s.world.letters id = [] := by
  have hsingle : ∀ before s₁, Meets (step config) Undivided s₀ before →
      exec (step config) s₀ before = some s₁ → s₁.Single id := by
    intro before s₁ hbefore hexec
    exact exec_invariant (fun (s₁ : System) a s₂ hs hk hstep => step_single hs hk hstep) hbefore hexec
      (Or.inl h₀)
  refine ⟨?_, ?_⟩
  · rcases hsingle run s hok hrun with hnil | ⟨hone, -⟩
    · rw [hnil]
      exact Nat.zero_le 1
    · exact Nat.le_of_eq hone
  · intro before a after s₁ hsplit hbefore hcompletes
    rw [hsplit] at hok hrun
    obtain ⟨hok₁, hok₂⟩ := meets_append.mp hok
    obtain ⟨s₁', hbefore', hrest⟩ := exec_append_eq_some.mp hrun
    rw [hbefore] at hbefore'
    cases hbefore'
    obtain ⟨s₂, hstep, hafter⟩ := exec_cons_eq_some.mp hrest
    have hdone : s₂.Completed id :=
      completes_completed (hsingle before s₁ hok₁ hbefore) (hok₂ s₁ hbefore).1 hstep hcompletes
    exact (exec_invariant (fun (s₁ : System) a s₂ hs hk hstep => step_completed hs hk hstep)
      ((hok₂ s₁ hbefore).2 s₂ hstep) hafter hdone).2

/-! ### A dead letter, an approval, and both -/

/-- None of the workers 0, 1 and 2 has a dead letter of the message to acknowledge. -/
def noneCloses (s : System) (id : String) : Bool :=
  (List.range 3).all fun q => (s.workers q).closing ≠ some id

/-- The conditions of `Undivided` on the step of a worker, by its state. -/
def tidyStep (s : System) (o : Outcome) : WorkerState → Bool
  | .appending m _ => (s.world.ack m.messageId).1 && s.noneCloses m.messageId
  | .acking _ (.deadLetter _) => !o.raises
  | .acking m _ => s.noneCloses m.messageId
  | _ => true

/-- A decidable form of `Undivided`, for runs of the workers 0, 1 and 2. -/
def tidy (s : System) : Action → Bool
  | .advance p o => p < 3 && s.tidyStep o (s.workers p)
  | .read p _ | .claim p _ _ => p < 3
  | .fail p | .crash p => p < 3 && (s.workers p).closing = none
  | _ => true

/-- No other worker does anything. -/
def Three (s : System) : Prop := ∀ q, 3 ≤ q → s.workers q = .idle

theorem step_three (hs : s.Three) (hok : s.tidy a = true) (h : step config s a = some s') : s'.Three := by
  have hupdate : ∀ (p : ℕ) (st : WorkerState), p < 3 → ∀ q, 3 ≤ q →
      update s.workers p st q = .idle := by
    intro p st hp q hq
    have hne : q ≠ p := by omega
    rw [update_of_ne hne]
    exact hs q hq
  cases a with
  | advance p o =>
    obtain ⟨⟨st, w⟩, -, rfl⟩ := Option.map_eq_some_iff.mp h
    exact hupdate p st (of_decide_eq_true (Bool.and_eq_true_iff.mp hok).1)
  | read p id =>
    obtain ⟨task, -, -, rfl⟩ := read_eq h
    exact hupdate p _ (of_decide_eq_true hok)
  | claim p id counted =>
    obtain ⟨task, n, count, -, -, rfl⟩ := claim_eq h
    exact hupdate p _ (of_decide_eq_true hok)
  | fail p =>
    simp only [step] at h
    split at h
    · cases h
      exact hupdate p _ (of_decide_eq_true (Bool.and_eq_true_iff.mp hok).1)
    · cases h
  | crash p =>
    simp only [step] at h
    split at h
    · cases h
      exact hupdate p _ (of_decide_eq_true (Bool.and_eq_true_iff.mp hok).1)
    · cases h
  | publish id task =>
    simp only [step] at h
    split at h
    · cases h
      exact hs
    · cases h
  | register task commits =>
    obtain ⟨d, db, -, rfl⟩ := register_eq h
    exact hs
  | expireLock key =>
    cases h
    exact hs
  | decide t decision reason auditId now commits =>
    obtain ⟨db, -, rfl⟩ := decide_eq h
    exact hs

theorem undivided_of_tidy (s : System) (a : Action) (hs : s.Three) (h : s.tidy a = true) : s.Undivided a := by
  have hall : ∀ id, s.noneCloses id = true → ∀ q, (s.workers q).closing ≠ some id := by
    intro id hfew q
    by_cases hq : q < 3
    · exact of_decide_eq_true (List.all_eq_true.mp hfew q (List.mem_range.mpr hq))
    · rw [hs q (Nat.le_of_not_lt hq)]
      exact nofun
  cases a with
  | advance p o =>
    have hp := (Bool.and_eq_true_iff.mp h).2
    refine ⟨fun m n hst _ => ?_, fun m path hst => ?_⟩
    · rw [hst] at hp
      obtain ⟨hack, hnone⟩ := Bool.and_eq_true_iff.mp hp
      exact ⟨(World.ack_pending hack).1, hall _ hnone⟩
    · rw [hst] at hp ⊢
      cases path with
      | deadLetter n =>
        refine ⟨fun _ => Bool.not_eq_true' _ ▸ hp, fun hstatus _ => ?_⟩
        rcases hstatus with hstatus | hstatus <;> cases hstatus
      | _ => exact ⟨nofun, fun _ _ => hall _ hp⟩
  | fail p =>
    have hnone := of_decide_eq_true (Bool.and_eq_true_iff.mp h).2
    exact hnone
  | crash p =>
    have hnone := of_decide_eq_true (Bool.and_eq_true_iff.mp h).2
    exact hnone
  | _ => trivial

theorem meets_undivided {run : List Action}
    (h : Meets (step exampleConfig) (fun s a => s.tidy a = true) empty run) :
    Meets (step exampleConfig) Undivided empty run :=
  h.mono_of_invariant (I := Three) (fun _ _ _ hs hok hstep => step_three hs hok hstep)
    (fun s a hs hok => undivided_of_tidy s a hs hok) fun _ _ => rfl

/-- Every worker that takes the message crashes, and the third gives it up. -/
def givenUp : List Action :=
  [.register exampleTask true, .publish "1-0" exampleTask, .read 0 "1-0", .crash 0,
    .claim 1 "1-0" true, .crash 1, .claim 2 "1-0" true] ++
    List.replicate 8 (.advance 2 (smooth .failed))

def approvedRun : List Action := toAck (smooth .failed) ++ [.advance 0 (smooth .failed)]

/-- Worker 0 is about to acknowledge its approval. -/
def approving (s : System) : Bool :=
  s.workers 0 = .acking ⟨"1-0", exampleTask, none⟩ (.fresh .approved .inProgress false none) ∧
    (s.world.ack "1-0").1 = true

theorem approving_completes (h : s.approving = true) : s.Completes (.advance 0 (smooth .failed)) "1-0" := by
  obtain ⟨hst, hack⟩ := of_decide_eq_true h
  exact ⟨0, smooth .failed, _, _, rfl, hst, rfl, Or.inl rfl, rfl, hack⟩

/-- A message that is given up has one dead letter, and one that is approved has none. -/
theorem dead_letter_excludes_completion_cases :
    (∃ s, exec (step exampleConfig) empty givenUp = some s ∧ s.world.letters "1-0" ≠ [] ∧
      (s.world.letters "1-0").length ≤ 1) ∧
    ∃ s, exec (step exampleConfig) empty approvedRun = some s ∧ s.world.letters "1-0" = [] := by
  refine ⟨?_, ?_⟩
  · have hx : (exec (step exampleConfig) empty givenUp).map
        (fun s => decide (s.world.letters "1-0" ≠ [])) = some true := by
      decide +kernel
    have hok : Meets (step exampleConfig) (fun s a => s.tidy a = true) empty givenUp := by
      decide +kernel
    obtain ⟨s, hs, hx⟩ := Option.map_eq_some_iff.mp hx
    exact ⟨s, hs, of_decide_eq_true hx,
      (dead_letter_excludes_completion rfl (meets_undivided hok) hs).1⟩
  · have hx : (exec (step exampleConfig) empty approvedRun).isSome = true := by
      decide +kernel
    have hok : Meets (step exampleConfig) (fun s a => s.tidy a = true) empty approvedRun := by
      decide +kernel
    have hbefore : (exec (step exampleConfig) empty (toAck (smooth .failed))).map approving =
        some true := by
      decide +kernel
    obtain ⟨s, hs⟩ := Option.isSome_iff_exists.mp hx
    obtain ⟨s₁, hs₁, hx₁⟩ := Option.map_eq_some_iff.mp hbefore
    exact ⟨s, hs, (dead_letter_excludes_completion rfl (meets_undivided hok) hs).2
      (toAck (smooth .failed)) (.advance 0 (smooth .failed)) [] s₁ rfl hs₁
      (approving_completes hx₁)⟩

/-- The message is claimed twice under a slow worker, which then approves and acknowledges it; the
second claimant finds the lock free and dead-letters it all the same. -/
def lateRun : List Action :=
  toVerdict .approved ⟨none, false, some "APPROVED"⟩ ++
    [.claim 1 "1-0" true, .crash 1, .claim 2 "1-0" true] ++
    List.replicate 7 (.advance 0 (smooth .failed)) ++ List.replicate 7 (.advance 2 (smooth .failed))

/-- **A message can be completed and dead-lettered.**  The probe of the lock says nothing about a worker
that has finished since the claim. -/
theorem completed_and_dead_lettered :
    ¬ ∀ (run : List Action) (s : System) (id : String),
      exec (step exampleConfig) empty run = some s →
      (s.world.letters id).length ≤ 1 ∧
        ∀ before a after s₁, run = before ++ a :: after →
          exec (step exampleConfig) empty before = some s₁ → s₁.Completes a id →
          s.world.letters id = [] := by
  intro hexcludes
  have hx : (exec (step exampleConfig) empty lateRun).map
      (fun s => decide (s.world.letters "1-0" ≠ [])) = some true := by
    decide +kernel
  have hbefore : (exec (step exampleConfig) empty (lateRun.take 19)).map approving = some true := by
    decide +kernel
  obtain ⟨s, hs, hx⟩ := Option.map_eq_some_iff.mp hx
  obtain ⟨s₁, hs₁, hx₁⟩ := Option.map_eq_some_iff.mp hbefore
  exact of_decide_eq_true hx ((hexcludes lateRun s "1-0" hs).2 (lateRun.take 19)
    (.advance 0 (smooth .failed)) (lateRun.drop 20) s₁ rfl hs₁ (approving_completes hx₁))

end System

end CountyFlow.Worker
