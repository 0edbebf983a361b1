import Mathlib.Data.Int.Log
import Mathlib.Data.Rat.Floor

/-!
# The nearest double

A number from 0 on is rounded to 53 binary digits, to fewer where the exponent has reached its least value; of
two neighbours at the same distance the even one is taken.
-/

namespace CountyFlow.Lib

/-- The nearest integer, of two at the same distance the even one. -/
def nearestEven (q : ℚ) : ℤ :=
  if q - ⌊q⌋ < 1 / 2 then ⌊q⌋
  else if 1 / 2 < q - ⌊q⌋ then ⌊q⌋ + 1
  else if ⌊q⌋ % 2 = 0 then ⌊q⌋
  else ⌊q⌋ + 1

def lastPlace (x : ℚ) : ℤ := max (Int.log 2 x - 52) (-1074)

/-- The nearest double of a number from 0 to the greatest double. -/
def binary64 (x : ℚ) : ℚ := nearestEven (x / 2 ^ lastPlace x) * 2 ^ lastPlace x

/-! ### The nearest integer -/

variable {q : ℚ}

theorem nearestEven_le {n : ℤ} (h : q ≤ n) : nearestEven q ≤ n := by
  have hfloor : ⌊q⌋ ≤ n := Int.floor_le_iff.mpr (by linarith)
  rcases hfloor.eq_or_lt with heq | hlt
  · have hhalf : q - ⌊q⌋ < 1 / 2 := by
      rw [heq]
      linarith
    rw [nearestEven, if_pos hhalf]
    exact hfloor
  · unfold nearestEven
    split
    · exact hfloor
    · split
      · exact hlt
      · split
        · exact hfloor
        · exact hlt

theorem nearestEven_nonneg (h : 0 ≤ q) : 0 ≤ nearestEven q := by
  have hfloor : 0 ≤ ⌊q⌋ := Int.floor_nonneg.mpr h
  unfold nearestEven
  split
  · exact hfloor
  · split
    · omega
    · split
      · exact hfloor
      · omega

theorem nearestEven_eq_zero_iff (h : 0 ≤ q) : nearestEven q = 0 ↔ q ≤ 1 / 2 := by
  have hfloor : 0 ≤ ⌊q⌋ := Int.floor_nonneg.mpr h
  rcases hfloor.eq_or_lt with heq | hlt
  · have hq : q - ⌊q⌋ = q := by
      rw [← heq]
      simp
    unfold nearestEven
    rw [hq, ← heq]
    constructor
    · intro hzero
      by_contra hbig
      have hlarge : 1 / 2 < q := not_le.mp hbig
      rw [if_neg (not_lt.mpr hlarge.le), if_pos hlarge] at hzero
      omega
    · intro hsmall
      rw [if_neg (not_lt.mpr hsmall)]
      simp
  · have hone : (1 : ℚ) ≤ q := by
      have hle : (1 : ℚ) ≤ (⌊q⌋ : ℚ) := by exact_mod_cast hlt
      exact hle.trans (Int.floor_le q)
    constructor
    · intro hzero
      have : ⌊q⌋ ≤ 0 := by
        unfold nearestEven at hzero
        split at hzero
        · exact hzero.le
        · split at hzero
          · omega
          · split at hzero
            · exact hzero.le
            · omega
      omega
    · intro hsmall
      linarith

/-! ### The nearest double -/

theorem pos_place (x : ℚ) : (0 : ℚ) < 2 ^ lastPlace x := zpow_pos (by norm_num) _

variable {x : ℚ}

theorem lastPlace_nonpos (h : x ≤ 1) : lastPlace x ≤ 0 := by
  have hlog : Int.log 2 x ≤ 0 := by
    rcases le_or_gt x 0 with hneg | hpos
    · rw [Int.log_of_right_le_zero _ hneg]
    · rw [← Int.log_one_right (R := ℚ) 2]
      exact Int.log_mono_right hpos h
  unfold lastPlace
  omega

theorem binary64_mem_unit (hlow : 0 ≤ x) (hhigh : x ≤ 1) : 0 ≤ binary64 x ∧ binary64 x ≤ 1 := by
  have hpos := pos_place x
  constructor
  · have hint := nearestEven_nonneg (div_nonneg hlow hpos.le)
    exact mul_nonneg (by exact_mod_cast hint) hpos.le
  · -- at a place of at most one, 1 is a whole number of places
    obtain ⟨n, hn⟩ := Int.eq_ofNat_of_zero_le (neg_nonneg.mpr (lastPlace_nonpos hhigh))
    have hplaces : (2 : ℚ) ^ lastPlace x = ((2 ^ n : ℤ) : ℚ)⁻¹ := by
      rw [show lastPlace x = -(n : ℤ) by omega, zpow_neg]
      simp
    have hle : x / 2 ^ lastPlace x ≤ ((2 ^ n : ℤ) : ℚ) := by
      rw [hplaces, div_inv_eq_mul]
      exact mul_le_of_le_one_left (by positivity) hhigh
    have hint : (nearestEven (x / 2 ^ lastPlace x) : ℚ) ≤ ((2 ^ n : ℤ) : ℚ) := by
      exact_mod_cast nearestEven_le hle
    unfold binary64
    calc (nearestEven (x / 2 ^ lastPlace x) : ℚ) * 2 ^ lastPlace x
        ≤ ((2 ^ n : ℤ) : ℚ) * 2 ^ lastPlace x := mul_le_mul_of_nonneg_right hint hpos.le
      _ = 1 := by
        rw [hplaces]
        exact mul_inv_cancel₀ (by positivity)

/-- **What is at most half of the least double vanishes**, and nothing else does. -/
theorem binary64_eq_zero_iff (h : 0 ≤ x) : binary64 x = 0 ↔ x ≤ 2 ^ (-1075 : ℤ) := by
  rcases h.eq_or_lt with rfl | hx
  · refine iff_of_true ?_ (zpow_nonneg (by norm_num) _)
    simp [binary64, nearestEven]
  have hpos := pos_place x
  have hzero : binary64 x = 0 ↔ x / 2 ^ lastPlace x ≤ 1 / 2 := by
    rw [← nearestEven_eq_zero_iff (div_nonneg h hpos.le), binary64, mul_eq_zero, Int.cast_eq_zero]
    exact or_iff_left hpos.ne'
  rw [hzero, div_le_iff₀ hpos]
  rcases le_or_gt (Int.log 2 x - 52) (-1074) with hleast | hgreat
  · have hhalf : (1 / 2 : ℚ) * 2 ^ lastPlace x = 2 ^ (-1075 : ℤ) := by
      rw [lastPlace, max_eq_right hleast,
        show (-1074 : ℤ) = -1075 + 1 by rfl, zpow_add₀ two_ne_zero, zpow_one]
      ring
    rw [hhalf]
  · -- a number of 53 digits is greater than half of its last place
    have hlog : (2 : ℚ) ^ Int.log 2 x ≤ x := by
      exact_mod_cast Int.zpow_log_le_self (R := ℚ) (b := 2) (by norm_num) hx
    have hplace : (1 / 2 : ℚ) * 2 ^ lastPlace x < x := by
      have hlt : (2 : ℚ) ^ lastPlace x ≤ 2 ^ Int.log 2 x := by
        apply zpow_le_zpow_right₀ (by norm_num)
        rw [lastPlace, max_eq_left hgreat.le]
        omega
      linarith
    have hleast : (2 : ℚ) ^ (-1075 : ℤ) < x := by
      refine lt_of_lt_of_le (zpow_lt_zpow_right₀ (by norm_num) ?_) hlog
      omega
    exact iff_of_false (not_le.mpr hplace) (not_le.mpr hleast)

example : binary64 (1 / 2) = 1 / 2 := by decide +kernel

end CountyFlow.Lib
