import Mathlib.Tactic.IntervalCases
import Mathlib.Data.List.TakeWhile
import CountyFlow.Core.Number

/-!
# Decimals read back from their texts

`format(d, "f")` and `str(d)` of a number are read as the number, within the limits of each notation.
-/

namespace CountyFlow.Core.Number

/-! ### Plain characters -/

/-- The characters of a text of a decimal. -/
def Plain (c : Char) : Prop := c.isDigit = true ∨ c ∈ ['.', 'E', '+', '-']

variable {c : Char}

theorem ascii_digit (h : c.isDigit = true) : ascii c = c := by
  have hbounds : 48 ≤ c.toNat ∧ c.toNat ≤ 57 := by
    simp only [Char.isDigit, Bool.and_eq_true, decide_eq_true_eq, ge_iff_le] at h
    exact h
  have hfind : zeros.find? (fun first => first ≤ c.toNat ∧ c.toNat < first + 10) = some 0x30 := by
    unfold zeros
    rw [List.find?_cons_of_pos]
    simpa using ⟨hbounds.1, by omega⟩
  simp only [ascii, hfind]
  have hchar := Char.ofNat_toNat c
  obtain ⟨hlow, hhigh⟩ := hbounds
  interval_cases hn : c.toNat <;> rw [← hchar] <;> rfl

theorem ascii_plain (h : Plain c) : ascii c = c := by
  rcases h with h | h
  · exact ascii_digit h
  · have hall : ∀ c ∈ ['.', 'E', '+', '-'], (ascii c == c) = true := List.all_eq_true.mp (by decide +kernel)
    exact eq_of_beq (hall c h)

variable {text : List Char}

theorem map_ascii (h : ∀ c ∈ text, Plain c) : (text.filter (· ≠ '_')).map ascii = text := by
  have hfilter : text.filter (· ≠ '_') = text := by
    rw [List.filter_eq_self]
    intro c hc
    rcases h c hc with hdigit | hsign
    · have hne : c ≠ '_' := by
        rintro rfl
        revert hdigit
        decide
      simpa using hne
    · have hall : ∀ c ∈ ['.', 'E', '+', '-'], decide (c ≠ '_') = true := List.all_eq_true.mp (by decide)
      exact hall c hsign
  rw [hfilter, List.map_congr_left (fun c hc => ascii_plain (h c hc)), List.map_id']

theorem plain_pointed (d : Decimal) (place : ℤ) : ∀ c ∈ Decimal.pointed d.digits place, Plain c := by
  have hdigits : ∀ c ∈ d.digits, Plain c := fun c hc =>
    .inl (Nat.isDigit_of_mem_toDigits (by decide) (by decide) hc)
  have hzeros (n : ℕ) : ∀ c ∈ List.replicate n '0', Plain c := by
    intro c hc
    obtain rfl := List.eq_of_mem_replicate hc
    exact .inl rfl
  have hpoint : Plain '.' := .inr (by simp)
  intro c hc
  unfold Decimal.pointed at hc
  split at hc
  · simp only [List.mem_cons, List.mem_append] at hc
    rcases hc with rfl | rfl | hc | hc
    · exact .inl rfl
    · exact hpoint
    · exact hzeros _ c hc
    · exact hdigits c hc
  · split at hc
    · rcases List.mem_append.mp hc with hc | hc
      · exact hdigits c hc
      · exact hzeros _ c hc
    · simp only [List.mem_cons, List.mem_append] at hc
      rcases hc with hc | rfl | hc
      · exact hdigits c (List.mem_of_mem_take hc)
      · exact hpoint
      · exact hdigits c (List.mem_of_mem_drop hc)

theorem plain_sign (d : Decimal) : ∀ c ∈ d.sign, Plain c := by
  intro c hc
  unfold Decimal.sign at hc
  split at hc
  · exact .inr (by simp [List.mem_singleton.mp hc])
  · cases hc

theorem plain_fixed (d : Decimal) : ∀ c ∈ d.fixed.toList, Plain c := by
  intro c hc
  rw [Decimal.fixed, String.toList_ofList] at hc
  rcases List.mem_append.mp hc with hc | hc
  · exact plain_sign d c hc
  · split at hc
    · rw [List.mem_singleton] at hc
      exact .inl (by rw [hc]; rfl)
    · exact plain_pointed d _ c hc

theorem plain_str (d : Decimal) : ∀ c ∈ d.str.toList, Plain c := by
  intro c hc
  rw [Decimal.str, String.toList_ofList] at hc
  rcases List.mem_append.mp hc with hc | hc
  · exact plain_sign d c hc
  · split at hc
    · exact plain_pointed d _ c hc
    · rcases List.mem_append.mp hc with hc | hc
      · exact plain_pointed d _ c hc
      · simp only [List.mem_cons] at hc
        rcases hc with rfl | rfl | hc
        · exact .inr (by simp)
        · right
          split <;> simp
        · exact .inl (Nat.isDigit_of_mem_toDigits (by decide) (by decide) hc)

/-! ### Digits and a point -/

theorem digits_append {rest : List Char} (htext : ∀ c ∈ text, c.isDigit = true)
    (hrest : ∀ c ∈ rest.head?, c.isDigit = false) : digits (text ++ rest) = (text, rest) := by
  have hnone : rest.takeWhile Char.isDigit = [] ∧ rest.dropWhile Char.isDigit = rest := by
    cases rest with
    | nil => exact ⟨rfl, rfl⟩
    | cons c rest => simp [hrest c rfl]
  unfold digits
  rw [List.takeWhile_append_of_pos htext, List.dropWhile_append_of_pos htext, hnone.1, hnone.2,
    List.append_nil]

/-- A text of digits with a point behind the first `place` of them. -/
structure Split (ds : List Char) (place : ℤ) (text whole fraction : List Char) : Prop where
  text_eq : text = whole ++ if fraction = [] then [] else '.' :: fraction
  whole_ne : whole ≠ []
  isDigit : ∀ c ∈ whole ++ fraction, c.isDigit = true
  value : Nat.ofDigitChars 10 (whole ++ fraction) 0 = Nat.ofDigitChars 10 ds 0
  length : (fraction.length : ℤ) = ds.length - place

variable {ds : List Char} {place : ℤ}

theorem split_pointed (hne : ds ≠ []) (hdigits : ∀ c ∈ ds, c.isDigit = true) (hplace : place ≤ ds.length) :
    ∃ whole fraction, Split ds place (Decimal.pointed ds place) whole fraction := by
  unfold Decimal.pointed
  split
  · rename_i hbefore
    refine ⟨['0'], List.replicate (-place).toNat '0' ++ ds, ?_, by simp, ?_, ?_, ?_⟩
    · simp [hne]
    · intro c hc
      simp only [List.cons_append, List.nil_append, List.mem_cons, List.mem_append] at hc
      rcases hc with rfl | hzero | hc
      · rfl
      · obtain rfl := List.eq_of_mem_replicate hzero
        rfl
      · exact hdigits c hc
    · rw [← List.append_assoc, show ['0'] ++ List.replicate (-place).toNat '0' =
        List.replicate ((-place).toNat + 1) '0' from rfl, Nat.ofDigitChars_append]
      simp
    · simp only [List.length_append, List.length_replicate]
      omega
  · split
    · refine ⟨ds, [], ?_, hne, by simpa using hdigits, by simp, ?_⟩
      · have hzero : (place - ds.length).toNat = 0 := by omega
        simp [hzero]
      · simp only [List.length_nil]
        omega
    · have hfraction : ds.drop place.toNat ≠ [] := by
        rw [Ne, List.drop_eq_nil_iff]
        omega
      refine ⟨ds.take place.toNat, ds.drop place.toNat, ?_, ?_, ?_, ?_, ?_⟩
      · simp [hfraction]
      · rw [Ne, List.take_eq_nil_iff]
        rintro (hzero | hnil)
        · omega
        · exact hne hnil
      · rw [List.take_append_drop]
        exact hdigits
      · rw [List.take_append_drop]
      · rw [List.length_drop]
        omega

variable {tail : List Char} {e : ℤ} {d : Decimal}

theorem literal_split {whole fraction : List Char} (h : Split ds place text whole fraction) (negative : Bool)
    (htail : exponentOf tail = some e) (hhead : ∀ c ∈ tail.head?, c.isDigit = false ∧ c ≠ '.')
    (hd : d = ⟨negative, Nat.ofDigitChars 10 ds 0, e - (ds.length - place)⟩)
    (hsize : tooLarge d = false) : literal negative (text ++ tail) = some d := by
  have hwhole : ∀ c ∈ whole, c.isDigit = true := fun c hc => h.isDigit c (List.mem_append_left _ hc)
  have hfraction : ∀ c ∈ fraction, c.isDigit = true := fun c hc => h.isDigit c (List.mem_append_right _ hc)
  have hnonempty : whole ++ fraction ≠ [] := by simp [h.whole_ne]
  have hnumber : (⟨negative, Nat.ofDigitChars 10 (whole ++ fraction) 0, e - fraction.length⟩ : Decimal) =
    d := by
    rw [hd, h.value, h.length]
  rw [h.text_eq]
  by_cases hnil : fraction = []
  · subst hnil
    have hdigits : digits (whole ++ tail) = (whole, tail) := digits_append hwhole fun c hc => (hhead c hc).1
    rw [if_pos rfl, List.append_nil]
    simp only [literal, hdigits]
    split
    · exact absurd rfl (hhead '.' rfl).2
    · simp only [if_neg hnonempty, hnumber, Option.bind_eq_bind, htail, Option.bind_some, hsize]
      rfl
  · have hdigits : digits (whole ++ '.' :: (fraction ++ tail)) = (whole, '.' :: (fraction ++ tail)) :=
      digits_append hwhole fun c hc => by
        cases hc
        decide
    have hrest : digits (fraction ++ tail) = (fraction, tail) :=
      digits_append hfraction fun c hc => (hhead c hc).1
    rw [if_neg hnil, List.append_assoc, List.cons_append]
    simp only [literal, hdigits, hrest, htail]
    simp only [if_neg hnonempty, hnumber, Option.bind_eq_bind, Option.bind_some, hsize]
    rfl

theorem unsigned_digit (hc : c.isDigit = true) (negative : Bool) (text : List Char) :
    unsigned negative (c :: text) = (literal negative (c :: text)).map Number.finite := by
  have hspecial : ∀ d ∈ ['i', 'n', 's'], (c.toLower != d) = true := by
    have hall : ∀ n, 48 ≤ n → n ≤ 57 → ∀ d ∈ ['i', 'n', 's'], ((Char.ofNat n).toLower != d) = true := by
      intro n hlow hhigh
      interval_cases n <;> exact List.all_eq_true.mp (by decide)
    simp only [Char.isDigit, Bool.and_eq_true, decide_eq_true_eq, ge_iff_le] at hc
    have h := hall c.toNat hc.1 hc.2
    rwa [Char.ofNat_toNat] at h
  have hi := bne_iff_ne.mp (hspecial 'i' (by simp))
  have hn := bne_iff_ne.mp (hspecial 'n' (by simp))
  have hs := bne_iff_ne.mp (hspecial 's' (by simp))
  have hinf : ¬ ((c :: text).map Char.toLower = "inf".toList ∨
      (c :: text).map Char.toLower = "infinity".toList) := by
    rintro (h | h) <;> exact hi (List.cons.inj h).1
  have hnan : ¬ ((digits (((c :: text).map Char.toLower).drop 3)).2 = [] ∧
      ((c :: text).map Char.toLower).take 3 = "nan".toList) := by
    rintro ⟨-, h⟩
    exact hn (List.cons.inj h).1
  have hsnan : ¬ ((digits (((c :: text).map Char.toLower).drop 4)).2 = [] ∧
      ((c :: text).map Char.toLower).take 4 = "snan".toList) := by
    rintro ⟨-, h⟩
    exact hs (List.cons.inj h).1
  simp only [unsigned, if_neg hinf, if_neg hnan, if_neg hsnan]

/-! ### What is read -/

theorem literal_size {negative : Bool} (h : literal negative text = some d) : tooLarge d = false := by
  simp only [literal] at h
  -- with a point and without one
  split at h <;>
  · split at h
    · cases h
    · obtain ⟨e, -, h⟩ := Option.bind_eq_some_iff.mp h
      split at h
      · cases h
      · rename_i hsize
        cases h
        simpa using hsize

theorem unsigned_size {negative : Bool}
    (h : unsigned negative text = some (.finite d)) : tooLarge d = false := by
  simp only [unsigned] at h
  split at h
  · cases h
  · split at h
    · cases h
    · split at h
      · cases h
      · obtain ⟨d', hliteral, hd⟩ := Option.map_eq_some_iff.mp h
        cases hd
        exact literal_size hliteral

theorem ofText_size {text : String} (h : ofText text = some (.finite d)) : tooLarge d = false := by
  unfold ofText at h
  split at h <;> exact unsigned_size h

/-! ### The two notations -/

theorem ofText_signed (d : Decimal) (hc : c.isDigit = true) (hplain : ∀ x ∈ c :: text, Plain x) :
    ofText (String.ofList (d.sign ++ c :: text)) = (literal d.negative (c :: text)).map Number.finite := by
  have hall : ∀ x ∈ d.sign ++ c :: text, Plain x := by
    intro x hx
    rcases List.mem_append.mp hx with hx | hx
    · exact plain_sign d x hx
    · exact hplain x hx
  unfold ofText
  rw [String.toList_ofList, map_ascii hall]
  unfold Decimal.sign
  cases hnegative : d.negative with
  | true => exact unsigned_digit hc true text
  | false =>
    simp only [Bool.false_eq_true, if_false, List.nil_append]
    split
    · revert hc
      simp_all
    · simp_all
    · exact unsigned_digit hc false text

theorem ofText_pointed (hplace : place ≤ d.digits.length) (htail : exponentOf tail = some e)
    (hhead : ∀ c ∈ tail.head?, c.isDigit = false ∧ c ≠ '.') (hplain : ∀ c ∈ tail, Plain c)
    (hexponent : d.exponent = e - (d.digits.length - place)) (hsize : tooLarge d = false) :
    ofText (String.ofList (d.sign ++ (Decimal.pointed d.digits place ++ tail))) = some (.finite d) := by
  have hdigits : ∀ c ∈ d.digits, c.isDigit = true := fun c hc =>
    Nat.isDigit_of_mem_toDigits (by decide) (by decide) hc
  obtain ⟨whole, fraction, hsplit⟩ := split_pointed d.digits_ne_nil hdigits hplace
  have hd : d = ⟨d.negative, Nat.ofDigitChars 10 d.digits 0, e - (d.digits.length - place)⟩ := by
    rw [← hexponent]
    unfold Decimal.digits
    rw [Nat.ofDigitChars_ten_toDigits]
  have hliteral := literal_split hsplit d.negative htail hhead hd hsize
  cases hw : whole with
  | nil => exact absurd hw hsplit.whole_ne
  | cons c whole' =>
    have htext : Decimal.pointed d.digits place ++ tail =
        c :: (whole' ++ ((if fraction = [] then [] else '.' :: fraction) ++ tail)) := by
      rw [hsplit.text_eq, hw]
      simp
    have hc : c.isDigit = true := hsplit.isDigit c (by simp [hw])
    have hbody : ∀ x ∈ Decimal.pointed d.digits place ++ tail, Plain x := by
      intro x hx
      rcases List.mem_append.mp hx with hx | hx
      · exact plain_pointed d place x hx
      · exact hplain x hx
    rw [htext] at hliteral hbody ⊢
    rw [ofText_signed d hc hbody, hliteral]
    rfl

theorem ofText_point (hexponent : d.exponent ≤ 0) (hsize : tooLarge d = false) :
    ofText (String.ofList (d.sign ++ Decimal.pointed d.digits d.place)) = some (.finite d) := by
  have hplace : d.place ≤ d.digits.length := by
    unfold Decimal.place
    omega
  have hzero : exponentOf [] = some 0 := rfl
  have h := ofText_pointed hplace hzero (by simp) (by simp) (by unfold Decimal.place; omega) hsize
  rwa [List.append_nil] at h

theorem ofText_fixed (hexponent : d.exponent ≤ 0) (hsize : tooLarge d = false) :
    ofText d.fixed = some (.finite d) := by
  unfold Decimal.fixed
  rw [if_neg (by omega)]
  exact ofText_point hexponent hsize

theorem exponentOf_scientific (e : ℤ) :
    exponentOf ('E' :: (if 0 ≤ e then '+' else '-') :: Nat.toDigits 10 e.natAbs) = some e := by
  have hne : Nat.toDigits 10 e.natAbs ≠ [] := Nat.toDigits_ne_nil
  have hall : (Nat.toDigits 10 e.natAbs).all Char.isDigit = true := by
    rw [List.all_eq_true]
    exact fun c hc => Nat.isDigit_of_mem_toDigits (by decide) (by decide) hc
  split
  · rename_i hsign
    simp [exponentOf, hne, hall, abs_of_nonneg hsign]
  · rename_i hsign
    simp [exponentOf, hne, hall, abs_of_neg (not_le.mp hsign)]

theorem ofText_str (hsize : tooLarge d = false) : ofText d.str = some (.finite d) := by
  have hlength : 1 ≤ d.digits.length := List.length_pos_iff.mpr d.digits_ne_nil
  unfold Decimal.str
  split
  · rename_i hpoint
    exact ofText_point hpoint.1 hsize
  · apply ofText_pointed (by omega) (exponentOf_scientific _) _ _ _ hsize
    · intro c hc
      cases hc
      decide
    · intro c hc
      rcases List.mem_cons.mp hc with rfl | hc
      · exact .inr (by simp)
      · rcases List.mem_cons.mp hc with rfl | hc
        · right
          split <;> simp
        · exact .inl (Nat.isDigit_of_mem_toDigits (by decide) (by decide) hc)
    · unfold Decimal.place
      omega

end CountyFlow.Core.Number
