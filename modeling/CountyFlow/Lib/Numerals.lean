import Mathlib.Data.List.Lex
import Mathlib.Data.Nat.Log
import Mathlib.Data.String.Basic
import Mathlib.Tactic.IntervalCases

/-!
# Decimal numerals as texts

Texts are compared character by character, numbers by their value.
-/

namespace CountyFlow.Lib

def digitsOf (n : ℕ) : List Char := Nat.toDigits 10 n

/-- The number of digits, less one. -/
def scale (n : ℕ) : ℕ := Nat.log 10 n

/-! ### The digits of a number -/

variable {n : ℕ}

theorem digitsOf_small (h : n < 10) : digitsOf n = [n.digitChar] :=
  Nat.toDigits_of_lt_base h

theorem digitsOf_large (h : 10 ≤ n) : digitsOf n = digitsOf (n / 10) ++ [(n % 10).digitChar] :=
  Nat.toDigits_of_base_le (by decide) h

theorem scale_small (h : n < 10) : scale n = 0 := Nat.log_of_lt h

theorem scale_large (h : 10 ≤ n) : scale n = scale (n / 10) + 1 :=
  Nat.log_of_one_lt_of_le (by decide) h

variable {m : ℕ}

theorem digitChar_lt_iff (hm : m < 10) (hn : n < 10) : m.digitChar < n.digitChar ↔ m < n := by
  interval_cases m <;> interval_cases n <;> decide

theorem digitsOf_injective : Function.Injective digitsOf := by
  intro m n h
  have hvalue := congrArg (fun text => Nat.ofDigitChars 10 text 0) h
  simpa [digitsOf] using hvalue

theorem length_digitsOf (n : ℕ) : (digitsOf n).length = scale n + 1 := by
  induction n using Nat.strongRecOn with
  | ind n ih =>
    by_cases h : n < 10
    · rw [digitsOf_small h, scale_small h]
      rfl
    · have hn : 10 ≤ n := not_lt.mp h
      rw [digitsOf_large hn, scale_large hn, List.length_append, ih (n / 10) (by omega)]
      rfl

theorem digitsOf_append {k : ℕ} (h : k ≤ scale n) :
    ∃ rest, rest.length = k ∧ digitsOf n = digitsOf (n / 10 ^ k) ++ rest := by
  induction k generalizing n with
  | zero => exact ⟨[], rfl, by simp⟩
  | succ k ih =>
    have hn : 10 ≤ n := by
      by_contra hlt
      rw [scale_small (not_le.mp hlt)] at h
      omega
    rw [scale_large hn] at h
    obtain ⟨rest, hlength, hrest⟩ := ih (n := n / 10) (by omega)
    refine ⟨rest ++ [(n % 10).digitChar], by simp [hlength], ?_⟩
    rw [digitsOf_large hn, hrest, Nat.div_div_eq_div_mul, ← pow_succ', List.append_assoc]

theorem scale_div {k : ℕ} (h : k ≤ scale n) : scale (n / 10 ^ k) = scale n - k := by
  obtain ⟨rest, hlength, hrest⟩ := digitsOf_append h
  have hlengths := congrArg List.length hrest
  rw [List.length_append, length_digitsOf, length_digitsOf, hlength] at hlengths
  omega

/-! ### Texts -/

section Texts

variable {α : Type*} [LinearOrder α]

theorem append_lt_append_iff {p q s t : List α} (h : p.length = q.length) :
    p ++ s < q ++ t ↔ p < q ∨ p = q ∧ s < t := by
  induction p generalizing q with
  | nil =>
    obtain rfl : q = [] := List.length_eq_zero_iff.mp h.symm
    simp
  | cons a p ih =>
    cases q with
    | nil => cases h
    | cons b q =>
      have hrest := ih (q := q) (by simpa using h)
      rw [List.cons_append, List.cons_append, List.cons_lt_cons_iff, List.cons_lt_cons_iff, hrest,
        List.cons.injEq]
      tauto

end Texts

theorem digits_lt_iff_of_scale (h : scale m = scale n) : digitsOf m < digitsOf n ↔ m < n := by
  induction m using Nat.strongRecOn generalizing n with
  | ind m ih =>
    by_cases hm : m < 10
    · have hn : n < 10 := by
        by_contra hlt
        rw [scale_small hm, scale_large (not_lt.mp hlt)] at h
        omega
      rw [digitsOf_small hm, digitsOf_small hn, List.cons_lt_cons_iff]
      simp [digitChar_lt_iff hm hn]
    · have hm' : 10 ≤ m := not_lt.mp hm
      have hn : 10 ≤ n := by
        by_contra hlt
        rw [scale_small (not_le.mp hlt), scale_large hm'] at h
        omega
      rw [scale_large hm', scale_large hn] at h
      have hlength : (digitsOf (m / 10)).length = (digitsOf (n / 10)).length := by
        rw [length_digitsOf, length_digitsOf]
        omega
      rw [digitsOf_large hm', digitsOf_large hn, append_lt_append_iff hlength,
        ih (m / 10) (by omega) (by omega), digitsOf_injective.eq_iff, List.cons_lt_cons_iff,
        digitChar_lt_iff (Nat.mod_lt _ (by decide)) (Nat.mod_lt _ (by decide))]
      simp only [List.not_lt_nil, and_false, or_false]
      omega

/-- **The smaller number has the smaller text exactly when the larger one does not begin with less.** -/
theorem digits_lt_iff (h : m < n) : digitsOf m < digitsOf n ↔ m ≤ n / 10 ^ (scale n - scale m) := by
  have hscale : scale m ≤ scale n := Nat.log_mono_right h.le
  have hk : scale n - scale m ≤ scale n := Nat.sub_le _ _
  obtain ⟨rest, hlength, hrest⟩ := digitsOf_append hk
  have hsame : scale m = scale (n / 10 ^ (scale n - scale m)) := by
    rw [scale_div hk]
    omega
  have hlengths : (digitsOf m).length = (digitsOf (n / 10 ^ (scale n - scale m))).length := by
    rw [length_digitsOf, length_digitsOf, ← hsame]
  rw [hrest, show digitsOf m = digitsOf m ++ [] from (List.append_nil _).symm,
    append_lt_append_iff hlengths, digits_lt_iff_of_scale hsame, digitsOf_injective.eq_iff]
  constructor
  · rintro (hlt | ⟨heq, -⟩)
    · exact hlt.le
    · exact heq.le
  · intro hle
    rcases hle.lt_or_eq with hlt | heq
    · exact .inl hlt
    · refine .inr ⟨heq, ?_⟩
      cases rest with
      | nil =>
        rw [← hlength] at heq
        simp at heq
        omega
      | cons c rest => exact List.nil_lt_cons ..

/-- The numerals of two numbers compare as the numbers do: the smaller one is at most what the larger one
begins with. -/
def Comparable (m n : ℕ) : Prop :=
  min m n ≤ max m n / 10 ^ (scale (max m n) - scale (min m n))

instance (m n : ℕ) : Decidable (Comparable m n) := inferInstanceAs (Decidable (_ ≤ _))

theorem comparable_comm : Comparable m n ↔ Comparable n m := by
  unfold Comparable
  rw [min_comm, max_comm]

theorem comparable_iff_of_lt (h : m < n) : Comparable m n ↔ digitsOf m < digitsOf n := by
  rw [digits_lt_iff h, Comparable, min_eq_left h.le, max_eq_right h.le]

/-- **Two different numbers are comparable exactly when their texts are in the order of the numbers.** -/
theorem comparable_iff (h : m ≠ n) : Comparable m n ↔ (digitsOf m < digitsOf n ↔ m < n) := by
  rcases lt_or_gt_of_ne h with hlt | hlt
  · rw [comparable_iff_of_lt hlt]
    exact ⟨fun hdigits => iff_of_true hdigits hlt, fun hiff => hiff.mpr hlt⟩
  · rw [comparable_comm, comparable_iff_of_lt hlt]
    have hnot : ¬ m < n := not_lt.mpr hlt.le
    have hne : digitsOf m ≠ digitsOf n := digitsOf_injective.ne h
    constructor
    · intro hdigits
      exact iff_of_false (not_lt.mpr hdigits.le) hnot
    · intro hiff
      exact lt_of_le_of_ne (not_lt.mp (mt hiff.mp hnot)) hne.symm

/-! ### Two numerals with a separator -/

theorem hyphen_lt_of_mem {c : Char} (h : c ∈ digitsOf n) : '-' < c := by
  have hdigit := Nat.isDigit_of_mem_toDigits (by decide) (by decide) h
  simp only [Char.isDigit, Bool.and_eq_true, decide_eq_true_eq] at hdigit
  exact lt_of_lt_of_le (by decide) hdigit.1

theorem separated_lt_iff {p q s t : List Char} (hp : ∀ c ∈ p, '-' < c) (hq : ∀ c ∈ q, '-' < c) :
    p ++ '-' :: s < q ++ '-' :: t ↔ p < q ∨ p = q ∧ s < t := by
  induction p generalizing q with
  | nil =>
    cases q with
    | nil => simp
    | cons b q =>
      have hb : '-' < b := hq b List.mem_cons_self
      simp [List.cons_lt_cons_iff, hb]
  | cons a p ih =>
    have ha : '-' < a := hp a List.mem_cons_self
    cases q with
    | nil => simp [List.cons_lt_cons_iff, ha.not_gt, ha.ne']
    | cons b q =>
      have hrest := ih (q := q) (fun c hc => hp c (List.mem_cons_of_mem _ hc))
        fun c hc => hq c (List.mem_cons_of_mem _ hc)
      rw [List.cons_append, List.cons_append, List.cons_lt_cons_iff, List.cons_lt_cons_iff, hrest,
        List.cons.injEq]
      tauto

theorem separated_injective {a b c d : ℕ}
    (h : digitsOf a ++ '-' :: digitsOf b = digitsOf c ++ '-' :: digitsOf d) : a = c ∧ b = d := by
  have hnone (n : ℕ) : '-' ∉ digitsOf n := fun hmem => (hyphen_lt_of_mem hmem).false
  obtain ⟨hac, -, hbd⟩ := (List.append_cons_inj_of_notMem (hnone _) (hnone _)).mp h
  exact ⟨digitsOf_injective hac, digitsOf_injective hbd⟩

theorem numeral_lt_iff {a b c d : ℕ} :
    digitsOf a ++ '-' :: digitsOf b < digitsOf c ++ '-' :: digitsOf d ↔
      digitsOf a < digitsOf c ∨ a = c ∧ digitsOf b < digitsOf d := by
  rw [separated_lt_iff (fun _ => hyphen_lt_of_mem) (fun _ => hyphen_lt_of_mem),
    digitsOf_injective.eq_iff]

end CountyFlow.Lib
