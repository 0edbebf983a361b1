import Mathlib.Algebra.Order.Field.Basic
import Mathlib.Tactic.Linarith

/-!
# Token buckets

A bucket holds tokens, up to a capacity, and tokens flow into it at a rate.  A request takes its cost from
the bucket or is refused.  How the inflow is accounted for, at each request or when the bucket is forgotten
and made anew, is left open: `Draws` only asks that nothing is granted beyond the capacity and the inflow.
-/

namespace CountyFlow.Lib

/-- What a bucket holds, and since when. -/
structure TokenBucket (K : Type*) where
  tokens : K
  updated : K

namespace TokenBucket

variable {K : Type*}

/-- The number of requests of a kind that are admitted. -/
def admittedIn (inside : K → Bool) (log : List (K × Bool)) : ℕ :=
  log.countP fun entry => inside entry.1 && entry.2

theorem admittedIn_eq_zero {inside : K → Bool} {log : List (K × Bool)}
    (h : ∀ entry ∈ log, inside entry.1 = false) : admittedIn inside log = 0 := by
  rw [admittedIn, List.countP_eq_zero]
  intro entry hentry
  simp [h entry hentry]

theorem admittedIn_congr {inside inside' : K → Bool} {log : List (K × Bool)}
    (h : ∀ entry ∈ log, inside entry.1 = inside' entry.1) :
    admittedIn inside log = admittedIn inside' log := by
  unfold admittedIn
  apply List.countP_congr
  intro entry hentry
  rw [h entry hentry]

variable [Field K]

/-- What a request takes. -/
def paid (cost : K) (admitted : Bool) : K := if admitted then cost else 0

theorem admittedIn_cons (cost : K) (inside : K → Bool) (now : K) (admitted : Bool) (log : List (K × Bool)) :
    cost * admittedIn inside ((now, admitted) :: log) =
      (if inside now then paid cost admitted else 0) + cost * admittedIn inside log := by
  unfold admittedIn
  rw [List.countP_cons]
  cases inside now <;> cases admitted <;> simp [paid, mul_add, add_comm]

variable [LinearOrder K]

/-- A request at a time, answered from a bucket, and the bucket it leaves. -/
structure Draws (capacity rate cost : K) (b : TokenBucket K) (now : K) (admitted : Bool)
    (b' : TokenBucket K) : Prop where
  later : b.updated ≤ now
  bounded : b'.tokens + paid cost admitted ≤ capacity
  inflow : b'.tokens + paid cost admitted ≤ b.tokens + rate * (now - b.updated)
  nonneg : 0 ≤ b'.tokens
  updated : b'.updated = now

/-- Requests one after the other, each with its time and its answer. -/
inductive Run (capacity rate cost : K) : TokenBucket K → List (K × Bool) → TokenBucket K → Prop
  | nil (b : TokenBucket K) : Run capacity rate cost b [] b
  | cons {b b' b'' : TokenBucket K} {now : K} {admitted : Bool} {log : List (K × Bool)}
      (draws : Draws capacity rate cost b now admitted b') (run : Run capacity rate cost b' log b'') :
      Run capacity rate cost b ((now, admitted) :: log) b''

variable {capacity rate cost : K} {b b' : TokenBucket K} {log : List (K × Bool)}

theorem Run.later (h : Run capacity rate cost b log b') : ∀ entry ∈ log, b.updated ≤ entry.1 := by
  induction h with
  | nil => simp
  | cons draws _ ih =>
    intro entry hentry
    rcases List.mem_cons.mp hentry with rfl | hentry
    · exact draws.later
    · have hlater := ih entry hentry
      rw [draws.updated] at hlater
      exact draws.later.trans hlater

variable [IsStrictOrderedRing K]

/-- **What is taken until a time** was in the bucket, or has flowed in since. -/
theorem Run.paid_le (hrate : 0 ≤ rate) (h : Run capacity rate cost b log b') (hb : 0 ≤ b.tokens) {last : K}
    (hlast : b.updated ≤ last) :
    cost * admittedIn (fun t => decide (t ≤ last)) log ≤ b.tokens + rate * (last - b.updated) := by
  induction h with
  | nil b =>
    have hinflow : 0 ≤ rate * (last - b.updated) := mul_nonneg hrate (sub_nonneg.mpr hlast)
    simp only [admittedIn, List.countP_nil, Nat.cast_zero, mul_zero]
    linarith
  | @cons b b₁ b₂ now admitted log draws run ih =>
    rw [admittedIn_cons]
    by_cases hnow : now ≤ last
    · have hrest := ih draws.nonneg (by rw [draws.updated]; exact hnow)
      have hinflow := draws.inflow
      rw [draws.updated] at hrest
      rw [decide_eq_true hnow, if_pos rfl]
      linarith
    · have hafter : ∀ entry ∈ log, decide (entry.1 ≤ last) = false := by
        intro entry hentry
        have hlater := run.later entry hentry
        rw [draws.updated] at hlater
        exact decide_eq_false (not_le.mpr ((not_le.mp hnow).trans_le hlater))
      have hinflow : 0 ≤ rate * (last - b.updated) := mul_nonneg hrate (sub_nonneg.mpr hlast)
      rw [admittedIn_eq_zero hafter, decide_eq_false hnow]
      simp only [Bool.false_eq_true, if_false, Nat.cast_zero, mul_zero]
      linarith

/-- **What is taken in an interval** is at most the capacity and the inflow of the interval. -/
theorem Run.window (hcapacity : 0 ≤ capacity) (hrate : 0 ≤ rate) (h : Run capacity rate cost b log b')
    {first last : K} (hle : first ≤ last) :
    cost * admittedIn (fun t => decide (first ≤ t ∧ t ≤ last)) log ≤ capacity + rate * (last - first) := by
  have hinflow : 0 ≤ rate * (last - first) := mul_nonneg hrate (sub_nonneg.mpr hle)
  induction h with
  | nil =>
    simp only [admittedIn, List.countP_nil, Nat.cast_zero, mul_zero]
    linarith
  | @cons b b₁ b₂ now admitted log draws run ih =>
    rw [admittedIn_cons]
    have hafter : ∀ entry ∈ log, now ≤ entry.1 := by
      intro entry hentry
      rw [← draws.updated]
      exact run.later entry hentry
    by_cases hnow : first ≤ now ∧ now ≤ last
    · -- from the first request in the interval on, only its end matters
      have hsame : admittedIn (fun t => decide (first ≤ t ∧ t ≤ last)) log =
          admittedIn (fun t => decide (t ≤ last)) log :=
        admittedIn_congr fun entry hentry =>
          decide_eq_decide.mpr (and_iff_right (hnow.1.trans (hafter entry hentry)))
      have hlast : b₁.updated ≤ last := draws.updated ▸ hnow.2
      have hrest := run.paid_le hrate draws.nonneg hlast
      have hbounded := draws.bounded
      have hless : rate * (last - now) ≤ rate * (last - first) :=
        mul_le_mul_of_nonneg_left (by linarith [hnow.1]) hrate
      rw [draws.updated] at hrest
      rw [hsame, decide_eq_true hnow, if_pos rfl]
      linarith
    · rw [decide_eq_false hnow]
      simp only [Bool.false_eq_true, if_false, zero_add]
      exact ih

end TokenBucket

end CountyFlow.Lib
