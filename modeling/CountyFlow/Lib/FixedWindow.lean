import CountyFlow.Lib.TokenBucket

/-!
# Fixed windows

A counter admits so many requests in a window.  A window begins with a request, the first one behind the
window before, so that the windows of one counter do not follow a grid.
-/

namespace CountyFlow.Lib

open TokenBucket (admittedIn admittedIn_eq_zero admittedIn_congr)

/-- When a window began, and what it has admitted. -/
structure FixedWindow (K : Type*) where
  started : K
  count : ℕ

namespace FixedWindow

variable {K : Type*} [Field K] [LinearOrder K]

/-- The window of a request: the last one, unless that is over. -/
def current (width now : K) (last : Option (FixedWindow K)) : FixedWindow K :=
  let window := last.getD ⟨now, 0⟩
  if width ≤ now - window.started then ⟨now, 0⟩ else window

/-- The answer to a request, and the window it leaves. -/
def draw (capacity : ℕ) (width now : K) (last : Option (FixedWindow K)) : Bool × FixedWindow K :=
  let window := current width now last
  if window.count < capacity then (true, { window with count := window.count + 1 }) else (false, window)

/-- The answers to requests one after the other. -/
def log (capacity : ℕ) (width : K) : Option (FixedWindow K) → List K → List (K × Bool)
  | _, [] => []
  | last, now :: times =>
    (now, (draw capacity width now last).1) :: log capacity width (some (draw capacity width now last).2)
    times

section

variable {capacity : ℕ} {width now : K} {last : Option (FixedWindow K)}

theorem draw_started : (draw capacity width now last).2.started = (current width now last).started := by
  unfold draw
  dsimp only
  split <;> rfl

theorem draw_count : (draw capacity width now last).2.count =
    (current width now last).count + if (draw capacity width now last).1 then 1 else 0 := by
  unfold draw
  dsimp only
  split <;> rfl

theorem draw_pos (hcapacity : 0 < capacity) : 0 < (draw capacity width now last).2.count := by
  unfold draw
  dsimp only
  split <;> rename_i h
  · exact Nat.succ_pos _
  · exact lt_of_lt_of_le hcapacity (not_lt.mp h)

theorem current_cases (width now : K) (last : Option (FixedWindow K)) :
    current width now last ∈ last ∨ current width now last = ⟨now, 0⟩ := by
  unfold current
  dsimp only
  split
  · exact .inr rfl
  · cases last with
    | none => exact .inr rfl
    | some w => exact .inl rfl

theorem draw_count_le (h : ∀ w ∈ last, w.count ≤ capacity) : (draw capacity width now last).2.count ≤
    capacity := by
  have hcount : (current width now last).count ≤ capacity := by
    obtain hold | hnew := current_cases width now last
    · exact h _ hold
    · rw [hnew]
      exact Nat.zero_le _
  unfold draw
  dsimp only
  split <;> rename_i hroom
  · exact hroom
  · exact hcount

/-- A window that is over admits the next request. -/
theorem draw_again {w : FixedWindow K} (hcapacity : 0 < capacity) (h : width ≤ now - w.started) :
    (draw capacity width now (some w)).1 = true := by
  simp [draw, current, h, hcapacity]

theorem admittedIn_log_cons (inside : K → Bool) (times : List K) :
    admittedIn inside (log capacity width last (now :: times)) =
      (if inside now && (draw capacity width now last).1 then 1 else 0) +
        admittedIn inside (log capacity width (some (draw capacity width now last).2) times) := by
  rw [log, admittedIn, List.countP_cons, Nat.add_comm]
  rfl

theorem times_log (times : List K) : (log capacity width last times).map Prod.fst = times := by
  induction times generalizing last with
  | nil => rfl
  | cons now times ih => rw [log, List.map_cons, ih]

theorem le_of_mem_log {times : List K} {entry : K × Bool} (hsorted : (now :: times).Pairwise (· ≤ ·))
    (hentry : entry ∈ log capacity width last (now :: times)) : now ≤ entry.1 := by
  have hmem : entry.1 ∈ (log capacity width last (now :: times)).map Prod.fst := List.mem_map_of_mem hentry
  rw [times_log] at hmem
  rcases List.mem_cons.mp hmem with hnow | hmem
  · exact hnow.ge
  · exact (List.pairwise_cons.mp hsorted).1 _ hmem

variable [IsStrictOrderedRing K]

theorem lt_started (hwidth : 0 < width) : now < (current width now last).started + width := by
  unfold current
  dsimp only
  split <;> rename_i h
  · linarith
  · linarith

/-- What is admitted until a time: the rest of the window, and the windows that may begin until then. -/
theorem admitted_before {w : FixedWindow K} {horizon : K} {m : ℕ} {times : List K}
    (hcount : w.count ≤ capacity)
    (hhorizon : horizon ≤ w.started + (m + 1) * width) (hsorted : times.Pairwise (· ≤ ·)) :
    admittedIn (fun t => t < horizon) (log capacity width (some w) times) + w.count ≤ (m + 1) * capacity := by
  induction times generalizing w m with
  | nil => simpa [log, admittedIn] using hcount.trans (Nat.le_mul_of_pos_left _ m.succ_pos)
  | cons now times ih =>
    have hrest := (List.pairwise_cons.mp hsorted).2
    by_cases hbefore : now < horizon
    · rw [admittedIn_log_cons]
      have hdraw : (draw capacity width now (some w)).2.count ≤ capacity :=
        draw_count_le fun _ h => by cases h; exact hcount
      have hadds : (draw capacity width now (some w)).2.count = (current width now (some w)).count +
          if (draw capacity width now (some w)).1 then 1 else 0 := draw_count
      simp only [decide_eq_true hbefore, Bool.true_and]
      by_cases hover : width ≤ now - w.started
      · -- a window begins, and one less may begin behind it
        have hcurrent : current width now (some w) = ⟨now, 0⟩ := if_pos hover
        cases m with
        | zero => norm_num at hhorizon; linarith
        | succ m =>
          have hnext := ih (m := m) hdraw (by rw [draw_started, hcurrent]; push_cast at hhorizon; linarith)
            hrest
          rw [hcurrent] at hadds
          have hmul : (m + 1 + 1) * capacity = (m + 1) * capacity + capacity := Nat.succ_mul ..
          omega
      · have hcurrent : current width now (some w) = w := if_neg hover
        have hnext := ih hdraw (by rw [draw_started, hcurrent]; exact hhorizon) hrest
        rw [hcurrent] at hadds
        omega
    · rw [admittedIn_eq_zero, Nat.zero_add]
      · exact hcount.trans (Nat.le_mul_of_pos_left _ m.succ_pos)
      · exact fun entry hentry => decide_eq_false fun h =>
          hbefore (lt_of_le_of_lt (le_of_mem_log hsorted hentry) h)

theorem log_current (hwidth : 0 < width) (times : List K) : log capacity width last (now :: times) =
    log capacity width (some (current width now last)) (now :: times) := by
  have hsame : current width now (some (current width now last)) = current width now last :=
    if_neg (not_le.mpr (sub_lt_iff_lt_add'.mpr (lt_started hwidth)))
  simp only [log, draw, hsame]

/-- **In an interval of so many widths** less is admitted than one window more could admit. -/
theorem admitted_in_interval (hwidth : 0 < width) (hcapacity : 0 < capacity) {first : K} {n : ℕ}
    {times : List K}
    (hlast : ∀ w ∈ last, w.count ≤ capacity ∧ 0 < w.count) (hsorted : times.Pairwise (· ≤ ·)) :
    admittedIn (fun t => first ≤ t ∧ t < first + n * width) (log capacity width last times) < (n + 1) *
      capacity := by
  have hsucc : (n + 1) * capacity = n * capacity + capacity := Nat.succ_mul ..
  induction times generalizing last with
  | nil => exact Nat.mul_pos n.succ_pos hcapacity
  | cons now times ih =>
    have hrest := (List.pairwise_cons.mp hsorted).2
    by_cases hfirst : first ≤ now
    · have hinside : ∀ entry ∈ log capacity width last (now :: times),
          decide (first ≤ entry.1 ∧ entry.1 < first + n * width) = decide (entry.1 < first + n * width) := by
        intro entry hentry
        simp [hfirst.trans (le_of_mem_log hsorted hentry)]
      have hover : now < (current width now last).started + width := lt_started hwidth
      rw [show admittedIn _ (log capacity width last (now :: times)) =
        admittedIn (fun t => t < first + n * width) _ from admittedIn_congr hinside, log_current hwidth]
      obtain hold | hnew := current_cases width now last
      · have hbound := admitted_before (m := n) (hlast _ hold).1
          (by linarith : first + n * width ≤ (current width now last).started + (n + 1) * width) hsorted
        have hpos := (hlast _ hold).2
        omega
      · rw [hnew]
        cases n with
        | zero =>
          rw [admittedIn_eq_zero]
          · exact Nat.mul_pos Nat.one_pos hcapacity
          · intro entry hentry
            have hle := le_of_mem_log hsorted hentry
            exact decide_eq_false (by norm_num; linarith)
        | succ n =>
          have hbound := admitted_before (w := ⟨now, 0⟩) (m := n) (Nat.zero_le capacity)
            (by push_cast; linarith : first + ((n + 1 : ℕ) : K) * width ≤ now + (n + 1) * width) hsorted
          omega
    · rw [admittedIn_log_cons]
      have hnot : decide (first ≤ now ∧ now < first + n * width) = false := decide_eq_false fun h =>
        hfirst h.1
      simp only [hnot, Bool.false_and, Bool.false_eq_true, if_false, Nat.zero_add]
      refine ih (fun w hw => ?_) hrest
      cases hw
      exact ⟨draw_count_le fun w hw => (hlast w hw).1, draw_pos hcapacity⟩

end

end FixedWindow

end CountyFlow.Lib
