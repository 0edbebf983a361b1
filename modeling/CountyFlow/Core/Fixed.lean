import Mathlib.Algebra.Order.Field.Rat
import Mathlib.Tactic.Ring
import CountyFlow.Core.Literal

/-!
# A decimal without a positive exponent

`format(d, "f")` writes the zeros of a positive exponent out, so that what is read back has the value of the
number and not its exponent.
-/

namespace CountyFlow.Core.Decimal

def value (d : Decimal) : ℚ := (if d.negative then -1 else 1) * d.coefficient * 10 ^ d.exponent

/-- The same number with the zeros of a positive exponent among its digits. -/
def plain (d : Decimal) : Decimal :=
  if d.exponent ≤ 0 then d else ⟨d.negative, d.coefficient * 10 ^ d.exponent.toNat, 0⟩

variable {d : Decimal}

theorem plain_of_nonpos (h : d.exponent ≤ 0) : d.plain = d := if_pos h

theorem plain_of_pos (h : 0 < d.exponent) :
    d.plain = ⟨d.negative, d.coefficient * 10 ^ d.exponent.toNat, 0⟩ := if_neg (not_le.mpr h)

theorem exponent_plain (d : Decimal) : d.plain.exponent ≤ 0 := by
  unfold plain
  split
  · assumption
  · exact le_rfl

theorem value_plain (d : Decimal) : d.plain.value = d.value := by
  rcases le_or_gt d.exponent 0 with h | h
  · rw [plain_of_nonpos h]
  · rw [plain_of_pos h]
    obtain ⟨e, he⟩ := Int.eq_ofNat_of_zero_le h.le
    unfold value
    rw [he, Int.toNat_natCast]
    push_cast
    rw [zpow_natCast]
    ring

theorem toDigits_mul_pow {n : ℕ} (h : 0 < n) (e : ℕ) :
    Nat.toDigits 10 (n * 10 ^ e) = Nat.toDigits 10 n ++ List.replicate e '0' := by
  induction e with
  | zero => simp
  | succ e ih =>
    have hpos : 0 < n * 10 ^ e := Nat.mul_pos h (by positivity)
    rw [pow_succ, ← mul_assoc, Nat.toDigits_of_base_le (by decide) (by omega),
      Nat.mul_div_cancel _ (by decide), Nat.mul_mod_left, ih, List.replicate_succ', ← List.append_assoc]
    rfl

theorem digits_plain (h : 0 < d.exponent) (hne : d.coefficient ≠ 0) :
    d.plain.digits = d.digits ++ List.replicate d.exponent.toNat '0' := by
  rw [plain_of_pos h]
  exact toDigits_mul_pow (Nat.pos_of_ne_zero hne) _

theorem fixed_plain (d : Decimal) : d.plain.fixed = d.fixed := by
  rcases le_or_gt d.exponent 0 with h | h
  · rw [plain_of_nonpos h]
  · have hsign : d.plain.sign = d.sign := by rw [plain_of_pos h]; rfl
    have hplain : ¬ (d.plain.coefficient = 0 ∧ 0 < d.plain.exponent) := fun hboth =>
      not_lt.mpr d.exponent_plain hboth.2
    unfold fixed
    rw [hsign, if_neg hplain]
    by_cases hzero : d.coefficient = 0
    · have hdigit : pointed d.plain.digits d.plain.place = ['0'] := by
        rw [plain_of_pos h, hzero, Nat.zero_mul]
        show pointed (Nat.toDigits 10 0) (0 + (Nat.toDigits 10 0).length) = ['0']
        decide
      rw [if_pos ⟨hzero, h⟩, hdigit]
    · have hlength : 1 ≤ d.digits.length := List.length_pos_iff.mpr d.digits_ne_nil
      have hplace : d.plain.place = d.place := by
        unfold place
        rw [digits_plain h hzero, plain_of_pos h]
        simp only [List.length_append, List.length_replicate]
        omega
      rw [if_neg fun hboth => hzero hboth.1, hplace, digits_plain h hzero]
      unfold pointed
      have hpositive : ¬ d.place ≤ 0 := by unfold place; omega
      have hall : (d.digits.length : ℤ) ≤ d.place := by unfold place; omega
      have hall' : ((d.digits ++ List.replicate d.exponent.toNat '0').length : ℤ) ≤ d.place := by
        unfold place
        simp only [List.length_append, List.length_replicate]
        omega
      rw [if_neg hpositive, if_pos hall', if_neg hpositive, if_pos hall, List.append_assoc]
      congr 3
      rw [← List.replicate_add]
      congr 1
      unfold place
      simp only [List.length_append, List.length_replicate]
      omega

theorem tooLarge_plain (h : Number.tooLarge d = false) : Number.tooLarge d.plain = false := by
  rcases le_or_gt d.exponent 0 with hexponent | hexponent
  · rw [plain_of_nonpos hexponent]
    exact h
  · by_cases hzero : d.coefficient = 0
    · rw [plain_of_pos hexponent, hzero, Nat.zero_mul]
      cases d.negative <;> decide
    · unfold Number.tooLarge at h ⊢
      rw [digits_plain hexponent hzero, plain_of_pos hexponent]
      simp only [decide_eq_false_iff_not, List.length_append, List.length_replicate] at h ⊢
      omega

theorem ofText_fixed_plain (h : Number.tooLarge d = false) :
    Number.ofText d.fixed = some (.finite d.plain) := by
  rw [← fixed_plain]
  exact Number.ofText_fixed d.exponent_plain (tooLarge_plain h)

end CountyFlow.Core.Decimal
