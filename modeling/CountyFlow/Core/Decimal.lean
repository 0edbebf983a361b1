import Mathlib.Algebra.Ring.Nat
import Mathlib.Algebra.Ring.Int.Defs
import Mathlib.Data.Int.Order.Basic
import Mathlib.Data.String.Basic

/-!
# Decimals and their texts

`Decimal` is a finite `decimal.Decimal` with its sign, its digits and its exponent, so that the text of
a decimal keeps the zeros behind its point.  `str` and `fixed` are `str(d)` and `format(d, "f")`.
-/

namespace CountyFlow.Core

/-- A finite `decimal.Decimal`: the coefficient times ten to the exponent. -/
structure Decimal where
  negative : Bool
  coefficient : ℕ
  exponent : ℤ
  deriving DecidableEq, Repr

namespace Decimal

def digits (d : Decimal) : List Char := Nat.toDigits 10 d.coefficient

def sign (d : Decimal) : List Char := if d.negative then ['-'] else []

/-- The place of the point among the digits. -/
def place (d : Decimal) : ℤ := d.exponent + d.digits.length

/-- Digits with the point behind the first `place` of them. -/
def pointed (digits : List Char) (place : ℤ) : List Char :=
  if place ≤ 0 then '0' :: '.' :: (List.replicate (-place).toNat '0' ++ digits)
  else if digits.length ≤ place then digits ++ List.replicate (place - digits.length).toNat '0'
  else digits.take place.toNat ++ '.' :: digits.drop place.toNat

/-- `format(d, "f")`. -/
def fixed (d : Decimal) : String :=
  String.ofList (d.sign ++
    if d.coefficient = 0 ∧ 0 < d.exponent then ['0'] else pointed d.digits d.place)

/-- `str(d)`: in scientific notation when the exponent is positive or the number very small. -/
def str (d : Decimal) : String :=
  String.ofList (d.sign ++
    if d.exponent ≤ 0 ∧ -6 < d.place then pointed d.digits d.place
    else pointed d.digits 1 ++ 'E' :: (if 0 ≤ d.place - 1 then '+' else '-') ::
      Nat.toDigits 10 (d.place - 1).natAbs)

/-- The number as a multiple of ten to an exponent that is not above its own. -/
def atExponent (d : Decimal) (exponent : ℤ) : ℤ :=
  (if d.negative then -1 else 1) * d.coefficient * 10 ^ (d.exponent - exponent).toNat

/-- `a == b`. -/
def same (a b : Decimal) : Bool :=
  let exponent := min a.exponent b.exponent
  a.atExponent exponent = b.atExponent exponent

/-- A coefficient without its last digits, ties to even. -/
def halfEven (coefficient dropped : ℕ) : ℕ :=
  let kept := coefficient / 10 ^ dropped
  let rest := coefficient % 10 ^ dropped
  if 2 * rest < 10 ^ dropped ∨ (2 * rest = 10 ^ dropped ∧ kept % 2 = 0) then kept else kept + 1

/-- The result of an operation in the default context, which keeps 28 digits. -/
def rounded (d : Decimal) : Decimal :=
  let dropped := d.digits.length - 28
  let kept := halfEven d.coefficient dropped
  if dropped = 0 then d
  else if kept = 10 ^ 28 then ⟨d.negative, 10 ^ 27, d.exponent + dropped + 1⟩
  else ⟨d.negative, kept, d.exponent + dropped⟩

/-- `a - b`. -/
def sub (a b : Decimal) : Decimal :=
  let exponent := min a.exponent b.exponent
  let difference := a.atExponent exponent - b.atExponent exponent
  rounded {
    negative :=
      if difference = 0 then a.coefficient = 0 && a.negative && !b.negative else difference < 0
    coefficient := difference.natAbs
    exponent := exponent }

/-- `d.quantize(Decimal("0.01"))`, of a number that fits the context. -/
def hundredths (d : Decimal) : Decimal :=
  if -2 ≤ d.exponent then ⟨d.negative, d.coefficient * 10 ^ (d.exponent + 2).toNat, -2⟩
  else ⟨d.negative, halfEven d.coefficient (-2 - d.exponent).toNat, -2⟩

theorem digits_ne_nil (d : Decimal) : d.digits ≠ [] := Nat.toDigits_ne_nil

theorem pointed_ne_nil {digits : List Char} (h : digits ≠ []) (place : ℤ) : pointed digits place ≠ [] := by
  unfold pointed
  split
  · simp
  · split
    · simp [h]
    · simp

theorem fixed_ne_empty (d : Decimal) : d.fixed ≠ "" := by
  intro h
  have hlist : d.sign ++
      (if d.coefficient = 0 ∧ 0 < d.exponent then ['0'] else pointed d.digits d.place) = [] := by
    simpa [fixed] using h
  split at hlist
  · simp at hlist
  · exact pointed_ne_nil d.digits_ne_nil d.place (List.append_eq_nil_iff.mp hlist).2

end Decimal

example : (Decimal.sub ⟨false, 1250, -2⟩ ⟨false, 98, -1⟩).str = "2.70" := by decide +kernel

end CountyFlow.Core
