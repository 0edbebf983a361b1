import CountyFlow.Security.Isoformat
import CountyFlow.Streams.Message

/-!
# Timestamps of messages

The texts that `datetime.now(UTC).isoformat()` writes are let through by `_utc_timestamp`.
-/

namespace CountyFlow.Streams

open CountyFlow.Operations (Date dateOf decimal padded intOf length_padded intOf_padded)
open CountyFlow.Security

/-! ### Dates of the calendar -/

theorem monthOf_valid : ∀ d < 366,
    let shifted := (5 * d + 2) / 153
    let month := if shifted < 10 then shifted + 3 else shifted - 9
    let day := d - (153 * shifted + 2) / 5 + 1
    1 ≤ month ∧ month ≤ 12 ∧ 1 ≤ day ∧
      day ≤ (if month = 2 then (if d = 365 then 29 else 28) else if month ∈ [4, 6, 9, 11] then 30 else 31) ∧
      (306 ≤ d → month ≤ 2) ∧ (month = 2 → 10 ≤ shifted) := by
  decide +kernel

theorem leap_of_last {e : ℕ} (he : e < 146097) (hlast : e - daysBefore (ordinary e / 365) = 365) :
    (ordinary e / 365 + 1) % 4 = 0 ∧
      ((ordinary e / 365 + 1) % 100 ≠ 0 ∨ (ordinary e / 365 + 1) % 400 = 0) := by
  obtain ⟨hyear, hbegins, -⟩ := year_of_day he
  by_cases hnext : ordinary e / 365 + 1 < 400
  · have hfirst := (ordinary_year _ hnext).1
    have hlt : e < daysBefore (ordinary e / 365 + 1) := by
      by_contra hle
      have hmono : ordinary (daysBefore (ordinary e / 365 + 1)) ≤ ordinary e := ordinary_mono (not_lt.mp hle)
      omega
    generalize ordinary e / 365 = y at *
    unfold daysBefore at hlast hlt hbegins
    have hfour : (y + 1) / 4 = y / 4 ∧ (y + 1) % 4 ≠ 0 ∨ (y + 1) / 4 = y / 4 + 1 ∧ (y + 1) % 4 = 0 := by omega
    have hcentury : (y + 1) / 100 = y / 100 ∧ (y + 1) % 100 ≠ 0 ∨
        (y + 1) / 100 = y / 100 + 1 ∧ (y + 1) % 100 = 0 := by omega
    omega
  · have h : ordinary e / 365 = 399 := by omega
    rw [h]
    decide

theorem dateOf_valid (instant : ℕ) : 1 ≤ (dateOf instant).year ∧ 1 ≤ (dateOf instant).month ∧
    (dateOf instant).month ≤ 12 ∧ 1 ≤ (dateOf instant).day ∧
    (dateOf instant).day ≤ daysInMonth (dateOf instant).year (dateOf instant).month := by
  have he : (instant / 86400 + 306) % 146097 < 146097 := Nat.mod_lt _ (by decide)
  obtain ⟨hyear, hbegins, hends⟩ := year_of_day he
  have hleap := leap_of_last he
  have hfirst : (instant / 86400 + 306) / 146097 = 0 → 306 ≤ (instant / 86400 + 306) % 146097 := by omega
  rw [dateOf_eq]
  generalize (instant / 86400 + 306) / 146097 = era at *
  generalize (instant / 86400 + 306) % 146097 = e at *
  generalize ordinary e / 365 = y at *
  have hday : e - daysBefore y < 366 := by omega
  obtain ⟨hmonth, hmonth', hone, hlast, hwinter, hfebruary⟩ := monthOf_valid (e - daysBefore y) hday
  have hstart : era = 0 → y = 0 → 306 ≤ e - daysBefore y := by
    intro hera hy
    have hzero : daysBefore 0 = 0 := rfl
    rw [hy, hzero]
    exact hfirst hera
  refine ⟨?_, hmonth, hmonth', hone, ?_⟩
  · show 1 ≤ y + era * 400 + _
    by_cases hwhole : era = 0 ∧ y = 0
    · rw [if_pos (hwinter (hstart hwhole.1 hwhole.2))]
      exact Nat.le_add_left 1 _
    · omega
  · change (dateIn era y (e - daysBefore y)).day ≤
      (if (dateIn era y (e - daysBefore y)).month = 2 then (if e - daysBefore y = 365 then 29 else 28)
        else if (dateIn era y (e - daysBefore y)).month ∈ [4, 6, 9, 11] then 30 else 31) at hlast
    by_cases hmonth : (dateIn era y (e - daysBefore y)).month = 2
    · rw [if_pos hmonth] at hlast
      rw [daysInMonth, if_pos hmonth]
      by_cases hend : e - daysBefore y = 365
      · have hyear : (dateIn era y (e - daysBefore y)).year = y + era * 400 + 1 := by
          show y + era * 400 + (if (dateIn era y (e - daysBefore y)).month ≤ 2 then 1 else 0) = _
          rw [if_pos (by omega)]
        have hisLeap : isLeap (dateIn era y (e - daysBefore y)).year = true := by
          obtain ⟨hfour, hcentury⟩ := hleap hend
          rw [hyear, isLeap, decide_eq_true_eq]
          omega
        rw [if_pos hend] at hlast
        rw [if_pos hisLeap]
        exact hlast
      · rw [if_neg hend] at hlast
        split
        · exact hlast.trans (by decide)
        · exact hlast
    · rw [if_neg hmonth] at hlast
      rw [daysInMonth, if_neg hmonth]
      exact hlast

/-! ### Numbers of a text -/

theorem isDigit_digitChar : ∀ d < 10, (Nat.digitChar d).isDigit = true := by decide

theorem isDigit_padded (width n : ℕ) : ∀ c ∈ padded width n, c.isDigit = true := by
  intro c hc
  rcases List.mem_append.mp hc with hc | hc
  · rw [List.eq_of_mem_replicate hc]
    rfl
  · obtain ⟨d, hd, rfl⟩ := List.mem_map.mp hc
    exact isDigit_digitChar d (Nat.digits_lt_base (by decide) (List.mem_reverse.mp hd))

theorem foldl_intOf (text : List Char) (n : ℕ) :
    text.foldl (fun n c => 10 * n + (c.toNat - 48)) n = n * 10 ^ text.length + intOf text := by
  induction text generalizing n with
  | nil => simp [intOf]
  | cons c text ih =>
    have hfirst := ih (c.toNat - 48)
    have hrest := ih (10 * n + (c.toNat - 48))
    have hint : intOf (c :: text) = text.foldl (fun n c => 10 * n + (c.toNat - 48)) (c.toNat - 48) := by
      simp [intOf]
    rw [List.foldl_cons, hrest, hint, hfirst, List.length_cons, pow_succ]
    ring

theorem digits_append {text : List Char} (h : ∀ c ∈ text, c.isDigit = true) (rest : List Char) :
    digits text.length (text ++ rest) = some (intOf text, rest) := by
  induction text with
  | nil => rfl
  | cons c text ih =>
    have hint : intOf (c :: text) = (c.toNat - 48) * 10 ^ text.length + intOf text := by
      rw [← foldl_intOf]
      simp [intOf]
    rw [List.length_cons, List.cons_append, digits, if_pos (h c List.mem_cons_self),
      ih fun c hc => h c (List.mem_cons_of_mem _ hc), hint]
    rfl

theorem digits_padded {width n : ℕ} (h : n < 10 ^ width) (rest : List Char) :
    digits width (padded width n ++ rest) = some (n, rest) := by
  have hread := digits_append (isDigit_padded width n) rest
  rwa [length_padded h, intOf_padded] at hread

theorem calendarDate_dateText {date : Date} (hyear : date.year < 10000)
    (hvalid : 1 ≤ date.year ∧ 1 ≤ date.month ∧ date.month ≤ 12 ∧ 1 ≤ date.day ∧
      date.day ≤ daysInMonth date.year date.month) (rest : List Char) :
    calendarDate true (dateText date ++ rest) = some rest := by
  have hdays : daysInMonth date.year date.month ≤ 31 := by
    unfold daysInMonth
    split
    · split <;> decide
    · split <;> decide
  have hyear' : date.year < 10 ^ 4 := hyear
  have hmonth : date.month < 10 ^ 2 := by omega
  have hday : date.day < 10 ^ 2 := by omega
  have htext : dateText date ++ rest = padded 4 date.year ++ '-' :: (padded 2 date.month ++
      '-' :: (padded 2 date.day ++ rest)) := by
    simp [dateText]
  simp only [calendarDate, htext, digits_padded hyear', digits_padded hmonth, digits_padded hday, separator,
    List.head?_cons, List.tail_cons, if_true, Option.bind_eq_bind, Option.bind_some]
  exact if_pos hvalid

/-! ### Times of a day -/

/-- The fraction that `isoformat` writes, if it writes one. -/
def fractionText (micro : ℕ) : List Char := if micro = 0 then [] else '.' :: padded 6 micro

theorem fraction_padded {micro : ℕ} (h : micro < 10 ^ 6) : fraction (padded 6 micro) = some micro := by
  have hlength : (padded 6 micro).length = 6 := length_padded h
  have hne : padded 6 micro ≠ [] := by
    intro hnil
    rw [hnil] at hlength
    cases hlength
  have hall : (padded 6 micro).all Char.isDigit = true := List.all_eq_true.mpr (isDigit_padded 6 micro)
  have hread := digits_padded h []
  rw [List.append_nil] at hread
  rw [fraction, if_pos ⟨hne, hall⟩, List.take_append_of_le_length hlength.ge,
    List.take_of_length_le hlength.le, hread]
  rfl

theorem clock_clockText {second micro : ℕ} (hsecond : second < 86400) (hmicro : micro < 10 ^ 6) :
    clock (clockText second ++ fractionText micro) =
      some (second / 3600, second / 60 % 60, second % 60, micro) := by
  have hhours : second / 3600 < 10 ^ 2 := by omega
  have hminutes : second / 60 % 60 < 10 ^ 2 := by omega
  have hseconds : second % 60 < 10 ^ 2 := by omega
  have htext : clockText second ++ fractionText micro = padded 2 (second / 3600) ++ ':' ::
      (padded 2 (second / 60 % 60) ++ ':' :: (padded 2 (second % 60) ++ fractionText micro)) := by
    simp [clockText]
  rw [htext, clock, digits_padded hhours]
  simp only [Option.bind_eq_bind, Option.bind_some, List.cons_ne_nil, if_false, List.head?_cons, separator,
    decide_true, if_true, List.tail_cons, digits_padded hminutes, digits_padded hseconds]
  unfold fractionText
  by_cases hzero : micro = 0
  · rw [if_pos hzero, hzero]
    rfl
  · rw [if_neg hzero]
    simp only [List.cons_ne_nil, if_false, List.head?_cons, true_or, if_true, List.tail_cons,
      fraction_padded hmicro]
    rfl

/-- No zone begins with the character. -/
def isPlain (c : Char) : Bool := ¬ (c = 'Z' ∨ c = '+' ∨ c = '-')

theorem isPlain_of_isDigit {c : Char} (h : c.isDigit = true) : isPlain c = true := by
  rw [isPlain, decide_eq_true_eq]
  rintro (rfl | rfl | rfl)
  · cases h
  · cases h
  · cases h

theorem isPlain_clockText (second micro : ℕ) : ∀ c ∈ clockText second ++ fractionText micro,
    isPlain c = true := by
  have hpadded : ∀ width n, ∀ c ∈ padded width n, isPlain c = true :=
    fun width n c hc => isPlain_of_isDigit (isDigit_padded width n c hc)
  have hfraction : ∀ c ∈ fractionText micro, isPlain c = true := by
    unfold fractionText
    split
    · exact nofun
    · rw [List.forall_mem_cons]
      exact ⟨rfl, hpadded 6 micro⟩
  simp only [clockText, List.forall_mem_append, List.forall_mem_cons]
  exact ⟨⟨hpadded _ _, rfl, hpadded _ _, rfl, hpadded _ _⟩, hfraction⟩

theorem timeOfDay_clockText {second micro : ℕ} (hsecond : second < 86400) (hmicro : micro < 10 ^ 6) :
    timeOfDay (clockText second ++ (fractionText micro ++ "+00:00".toList)) = some (some 0) := by
  have hplain := isPlain_clockText second micro
  have htake : (clockText second ++ (fractionText micro ++ "+00:00".toList)).takeWhile isPlain =
      clockText second ++ fractionText micro := by
    rw [← List.append_assoc, List.takeWhile_append_of_pos hplain]
    exact List.append_nil _
  have hdrop : (clockText second ++ (fractionText micro ++ "+00:00".toList)).dropWhile isPlain =
      "+00:00".toList := by
    rw [← List.append_assoc, List.dropWhile_append_of_pos hplain]
    rfl
  have hbounds : second / 3600 < 24 ∧ second / 60 % 60 < 60 ∧ second % 60 < 60 := by omega
  have hzone : (fun c : Char => decide ¬ (c = 'Z' ∨ c = '+' ∨ c = '-')) = isPlain := rfl
  unfold timeOfDay
  simp only [hzone]
  rw [htake, hdrop, clock_clockText hsecond hmicro]
  show (if second / 3600 < 24 ∧ second / 60 % 60 < 60 ∧ second % 60 < 60 then _ else none) = _
  rw [if_pos hbounds]
  rfl

theorem isUtc_isoformat (t : Datetime) : isUtc (isoformat t) = true := by
  have hseconds : t.microseconds / 1000000 < 315537897600 := by
    have hrange := t.inRange
    unfold endOfTime at hrange
    omega
  have htext : (isoformat t).toList = dateText (dateOf (t.microseconds / 1000000)) ++
      'T' :: (clockText (t.microseconds / 1000000 % 86400) ++
        (fractionText (t.microseconds % 1000000) ++ "+00:00".toList)) := by
    simp [isoformat, fractionText]
  have htime : timeOfDay (clockText (t.microseconds / 1000000 % 86400) ++
      (fractionText (t.microseconds % 1000000) ++ "+00:00".toList)) = some (some 0) :=
    timeOfDay_clockText (Nat.mod_lt _ (by decide)) (Nat.mod_lt _ (by decide))
  have hdate := fun rest => calendarDate_dateText (dateOf_year_lt hseconds)
    (dateOf_valid (t.microseconds / 1000000)) ('T' :: rest)
  generalize clockText (t.microseconds / 1000000 % 86400) ++
    (fractionText (t.microseconds % 1000000) ++ "+00:00".toList) = time at htext htime
  -- a time that is read is there
  cases time with
  | nil => cases htime
  | cons c time => simp only [isUtc, htext, utcoffset, hdate, List.findSome?_cons, htime, decide_true]

end CountyFlow.Streams
