import CountyFlow.Core.Decimal

/-!
# Reading decimals

`Number` is a `decimal.Decimal` with its special values, and `Number.ofText` the constructor on a text
without spaces around it.
-/

namespace CountyFlow.Core

/-- A `decimal.Decimal`. -/
inductive Number where
  | finite (d : Decimal)
  | infinite (negative : Bool)
  | nan
  deriving DecidableEq, Repr

namespace Number

/-- The zeros of the decimal digits of Unicode; the nine other digits of a script follow its zero. -/
def zeros : List ℕ :=
  [0x30, 0x660, 0x6F0, 0x7C0, 0x966, 0x9E6, 0xA66, 0xAE6, 0xB66, 0xBE6, 0xC66, 0xCE6, 0xD66, 0xDE6, 0xE50,
    0xED0, 0xF20, 0x1040, 0x1090, 0x17E0, 0x1810, 0x1946, 0x19D0, 0x1A80, 0x1A90, 0x1B50, 0x1BB0, 0x1C40,
    0x1C50, 0xA620, 0xA8D0, 0xA900, 0xA9D0, 0xA9F0, 0xAA50, 0xABF0, 0xFF10, 0x104A0, 0x10D30, 0x11066,
    0x110F0, 0x11136, 0x111D0, 0x112F0, 0x11450, 0x114D0, 0x11650, 0x116C0, 0x11730, 0x118E0, 0x11950,
    0x11C50, 0x11D50, 0x11DA0, 0x11F50, 0x16A60, 0x16AC0, 0x16B50, 0x1D7CE, 0x1D7D8, 0x1D7E2, 0x1D7EC,
    0x1D7F6, 0x1E140, 0x1E2F0, 0x1E4F0, 0x1E950, 0x1FBF0]

/-- A digit of any script as an ASCII digit. -/
def ascii (c : Char) : Char :=
  match zeros.find? fun first => first ≤ c.toNat ∧ c.toNat < first + 10 with
  | some first => (c.toNat - first).digitChar
  | none => c

/-- A number of digits, as many as there are, and what follows. -/
def digits (text : List Char) : List Char × List Char :=
  (text.takeWhile Char.isDigit, text.dropWhile Char.isDigit)

def exponentOf : List Char → Option ℤ
  | [] => some 0
  | c :: text =>
    let (negative, text) := match text with
      | '-' :: text => (true, text)
      | '+' :: text => (false, text)
      | text => (false, text)
    if (c = 'e' ∨ c = 'E') ∧ text ≠ [] ∧ text.all Char.isDigit then
      some (if negative then -(Nat.ofDigitChars 10 text 0) else Nat.ofDigitChars 10 text 0)
    else none

/-- The number has too many digits, or too large an exponent, for the implementation. -/
def tooLarge (d : Decimal) : Bool :=
  d.exponent < -1999999999999999997 ∨ 999999999999999999 < d.exponent + d.digits.length - 1

/-- A literal without its sign: digits with a point at most, and an exponent. -/
def literal (negative : Bool) (text : List Char) : Option Decimal := do
  let (whole, rest) := digits text
  let (fraction, rest) := match rest with
    | '.' :: rest => digits rest
    | rest => ([], rest)
  if whole ++ fraction = [] then none
  else do
    let exponent ← exponentOf rest
    let d : Decimal :=
      ⟨negative, Nat.ofDigitChars 10 (whole ++ fraction) 0, exponent - fraction.length⟩
    if tooLarge d then none else some d

/-- A number or a special value, behind its sign. -/
def unsigned (negative : Bool) (text : List Char) : Option Number :=
  let lower := text.map Char.toLower
  if lower = "inf".toList ∨ lower = "infinity".toList then some (.infinite negative)
  else if (digits (lower.drop 3)).2 = [] ∧ lower.take 3 = "nan".toList then some .nan
  else if (digits (lower.drop 4)).2 = [] ∧ lower.take 4 = "snan".toList then some .nan
  else (literal negative text).map Number.finite

/-- `Decimal(text)`; `none` where it raises `InvalidOperation`. -/
def ofText (text : String) : Option Number :=
  match (text.toList.filter (· ≠ '_')).map ascii with
  | '-' :: rest => unsigned true rest
  | '+' :: rest => unsigned false rest
  | rest => unsigned false rest

/-- `a <= b`; `none` where it raises `InvalidOperation`. -/
def le : Number → Number → Option Bool
  | .nan, _ | _, .nan => none
  | .infinite true, _ | _, .infinite false => some true
  | .infinite false, _ | _, .infinite true => some false
  | .finite a, .finite b =>
    let exponent := min a.exponent b.exponent
    some (a.atExponent exponent ≤ b.atExponent exponent)

end Number

example : Number.ofText "-1_2.50e+3" = some (.finite ⟨true, 1250, 1⟩) := by decide +kernel

end CountyFlow.Core
