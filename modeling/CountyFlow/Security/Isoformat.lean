import CountyFlow.Operations.Numbers

/-!
# Instants as texts

`datetime.isoformat` and `datetime.fromisoformat` for instants in UTC.  An instant is held by the
microseconds since the beginning of year 1.
-/

namespace CountyFlow.Security

open CountyFlow.Operations (Date dateOf decimal padded intOf intOf_padded length_padded)

/-! ### Days -/

def dayNumber (date : Date) : ℕ :=
  let year := if date.month ≤ 2 then date.year - 1 else date.year
  let shifted := if date.month ≤ 2 then date.month + 9 else date.month - 3
  let yearOfEra := year % 400
  year / 400 * 146097 + (365 * yearOfEra + yearOfEra / 4 - yearOfEra / 100) +
    ((153 * shifted + 2) / 5 + date.day - 1) - 306

def daysBefore (yearOfEra : ℕ) : ℕ := 365 * yearOfEra + yearOfEra / 4 - yearOfEra / 100

def ordinary (dayOfEra : ℕ) : ℕ := dayOfEra - dayOfEra / 1460 + dayOfEra / 36524 - dayOfEra / 146096

theorem ordinary_succ (e : ℕ) : ordinary e ≤ ordinary (e + 1) := by
  unfold ordinary
  omega

theorem ordinary_mono {e e' : ℕ} (h : e ≤ e') : ordinary e ≤ ordinary e' := by
  induction h with
  | refl => exact le_rfl
  | step _ ih => exact ih.trans (ordinary_succ _)

theorem ordinary_year : ∀ y < 400, 365 * y ≤ ordinary (daysBefore y) ∧
    (0 < y → ordinary (daysBefore y - 1) < 365 * y) := by
  decide +kernel

theorem year_of_day {e : ℕ} (he : e < 146097) :
    ordinary e / 365 < 400 ∧ daysBefore (ordinary e / 365) ≤ e ∧
      e ≤ daysBefore (ordinary e / 365) + 365 := by
  have hlast : ordinary e ≤ ordinary 146096 := ordinary_mono (by omega)
  have hvalue : ordinary 146096 = 145999 := by decide
  have hyear : ordinary e / 365 < 400 := by omega
  refine ⟨hyear, ?_, ?_⟩
  · by_contra hlt
    have hbefore := (ordinary_year _ hyear).2 (by
      rcases Nat.eq_zero_or_pos (ordinary e / 365) with h | h
      · rw [h] at hlt
        simp [daysBefore] at hlt
      · exact h)
    have hmono : ordinary e ≤ ordinary (daysBefore (ordinary e / 365) - 1) := ordinary_mono (by omega)
    omega
  · by_cases hnext : ordinary e / 365 + 1 < 400
    · by_contra hlt
      have hfirst := (ordinary_year _ hnext).1
      have hmono : ordinary (daysBefore (ordinary e / 365 + 1)) ≤ ordinary e := by
        apply ordinary_mono
        unfold daysBefore at *
        omega
      omega
    · have h : ordinary e / 365 = 399 := by omega
      rw [h]
      have hdays : daysBefore 399 = 145731 := by decide
      omega

/-- The date of a day of a year of an era; a year begins in March. -/
def dateIn (era yearOfEra dayOfYear : ℕ) : Date :=
  let shifted := (5 * dayOfYear + 2) / 153
  let month := if shifted < 10 then shifted + 3 else shifted - 9
  ⟨yearOfEra + era * 400 + (if month ≤ 2 then 1 else 0), month,
    dayOfYear - (153 * shifted + 2) / 5 + 1⟩

theorem dateOf_eq (instant : ℕ) : dateOf instant =
    dateIn ((instant / 86400 + 306) / 146097) (ordinary ((instant / 86400 + 306) % 146097) / 365)
      ((instant / 86400 + 306) % 146097 -
        daysBefore (ordinary ((instant / 86400 + 306) % 146097) / 365)) := by
  unfold dateOf dateIn ordinary daysBefore
  generalize instant / 86400 + 306 = z
  rfl

theorem dayNumber_dateIn {era y d : ℕ} (hy : y < 400) (hd : d ≤ 365) :
    dayNumber (dateIn era y d) = era * 146097 + daysBefore y + d - 306 := by
  unfold dayNumber dateIn daysBefore
  have hrest : (y + era * 400) % 400 = y := by omega
  have hera : (y + era * 400) / 400 = era := by omega
  by_cases hmarch : (5 * d + 2) / 153 < 10
  · have hmonth : ¬ (5 * d + 2) / 153 + 3 ≤ 2 := by omega
    simp only [hmarch, hmonth, if_true, if_false]
    simp only [Nat.add_zero, hrest, hera]
    generalize 365 * y + y / 4 - y / 100 = days
    omega
  · have hmonth : (5 * d + 2) / 153 - 9 ≤ 2 := by omega
    simp only [hmarch, hmonth, if_true, if_false]
    rw [Nat.add_sub_cancel, hrest, hera]
    generalize 365 * y + y / 4 - y / 100 = days
    omega

theorem dayNumber_dateOf (instant : ℕ) : dayNumber (dateOf instant) = instant / 86400 := by
  obtain ⟨hyear, hbegins, hends⟩ := year_of_day (e := (instant / 86400 + 306) % 146097)
    (Nat.mod_lt _ (by decide))
  rw [dateOf_eq, dayNumber_dateIn hyear (by omega)]
  omega

theorem dateOf_year_lt {instant : ℕ} (h : instant < 315537897600) : (dateOf instant).year < 10000 := by
  have hdays : instant / 86400 < 3652059 := by omega
  obtain ⟨hyear, hbegins, hends⟩ := year_of_day (e := (instant / 86400 + 306) % 146097)
    (Nat.mod_lt _ (by decide))
  rw [dateOf_eq]
  generalize instant / 86400 = days at hdays hyear hbegins hends ⊢
  generalize ordinary ((days + 306) % 146097) / 365 = y at hyear hbegins hends ⊢
  simp only [dateIn]
  by_cases hlast : (days + 306) / 146097 = 24 ∧ y = 399
  · obtain ⟨hera, rfl⟩ := hlast
    have hbefore : daysBefore 399 = 145731 := by decide
    rw [hbefore, hera]
    have hshifted : (5 * ((days + 306) % 146097 - 145731) + 2) / 153 < 10 := by omega
    simp only [hshifted, if_true]
    rw [if_neg (by omega)]
    omega
  · have hera : (days + 306) / 146097 ≤ 24 := by omega
    have hbound : y + (days + 306) / 146097 * 400 < 9999 := by omega
    split <;> split <;> omega

/-! ### Texts -/

/-- The end of the years: no `datetime` is as late. -/
def endOfTime : ℕ := 315537897600 * 1000000

/-- A `datetime` in UTC. -/
structure Datetime where
  microseconds : ℕ
  inRange : microseconds < endOfTime
  deriving DecidableEq

@[ext] theorem Datetime.ext {a b : Datetime} (h : a.microseconds = b.microseconds) : a = b := by
  cases a
  cases b
  simpa using h

/-- The clock of an instant: the seconds of a day as hours, minutes and seconds. -/
def clockText (secondOfDay : ℕ) : List Char :=
  padded 2 (secondOfDay / 3600) ++ ':' :: (padded 2 (secondOfDay / 60 % 60) ++
    ':' :: padded 2 (secondOfDay % 60))

def dateText (date : Date) : List Char :=
  padded 4 date.year ++ '-' :: (padded 2 date.month ++ '-' :: padded 2 date.day)

/-- `isoformat`: the microseconds are left out where there are none. -/
def isoformat (t : Datetime) : String :=
  let seconds := t.microseconds / 1000000
  let micro := t.microseconds % 1000000
  String.ofList (dateText (dateOf seconds) ++ 'T' :: (clockText (seconds % 86400) ++
    ((if micro = 0 then [] else '.' :: padded 6 micro) ++ "+00:00".toList)))

/-- The number that a text has at a place. -/
def field (text : List Char) (start width : ℕ) : ℕ := intOf ((text.drop start).take width)

/-- `fromisoformat`, of a text in a form that `isoformat` writes; `none` for a `ValueError`. -/
def fromisoformat (text : String) : Option Datetime :=
  let chars := text.toList
  let seconds := dayNumber ⟨field chars 0 4, field chars 5 2, field chars 8 2⟩ * 86400 +
    (field chars 11 2 * 3600 + field chars 14 2 * 60 + field chars 17 2)
  let rest := chars.drop 19
  let micro := if rest = "+00:00".toList then some 0
    else if rest.head? = some '.' ∧ rest.drop 7 = "+00:00".toList then some (field rest 1 6)
    else none
  match micro with
  | none => none
  | some micro =>
    let instant := seconds * 1000000 + micro
    if h : instant < endOfTime then some ⟨instant, h⟩ else none

theorem field_append {front text rest : List Char} {start width : ℕ} (hfront : front.length = start)
    (htext : text.length = width) : field (front ++ (text ++ rest)) start width = intOf text := by
  unfold field
  rw [List.drop_append_of_le_length (by omega), List.drop_of_length_le (by omega), List.nil_append,
    List.take_append_of_le_length (by omega), List.take_of_length_le (by omega)]

theorem length_dateText {date : Date} (hyear : date.year < 10000) (hmonth : date.month < 100)
    (hday : date.day < 100) : (dateText date).length = 10 := by
  simp only [dateText, List.length_append, List.length_cons]
  rw [length_padded (by simpa using hyear), length_padded (by simpa using hmonth),
    length_padded (by simpa using hday)]

theorem length_clockText {n : ℕ} (hn : n < 86400) : (clockText n).length = 8 := by
  simp only [clockText, List.length_append, List.length_cons]
  rw [length_padded (by omega), length_padded (by omega), length_padded (by omega)]

theorem field_padded (front rest : List Char) (start width n : ℕ) (hfront : front.length = start)
    (hn : n < 10 ^ width) : field (front ++ (padded width n ++ rest)) start width = n := by
  rw [field_append hfront (length_padded hn), intOf_padded]

theorem fields_dateText {date : Date} (hyear : date.year < 10000) (hmonth : date.month < 100)
    (hday : date.day < 100) (rest : List Char) :
    (⟨field (dateText date ++ rest) 0 4, field (dateText date ++ rest) 5 2,
      field (dateText date ++ rest) 8 2⟩ : Date) = date := by
  have hy : (padded 4 date.year).length = 4 := length_padded hyear
  have hm : (padded 2 date.month).length = 2 := length_padded hmonth
  have h0 : field (dateText date ++ rest) 0 4 = date.year := by
    have h := field_padded [] ('-' :: (padded 2 date.month ++ '-' :: padded 2 date.day) ++ rest) 0 4 date.year
      rfl hyear
    simpa [dateText] using h
  have h5 : field (dateText date ++ rest) 5 2 = date.month := by
    have h := field_padded (padded 4 date.year ++ ['-']) ('-' :: padded 2 date.day ++ rest) 5 2 date.month
      (by simp [hy]) hmonth
    simpa [dateText] using h
  have h8 : field (dateText date ++ rest) 8 2 = date.day := by
    have h := field_padded (padded 4 date.year ++ '-' :: (padded 2 date.month ++ ['-'])) rest 8 2 date.day
      (by simp [hy, hm]) hday
    simpa [dateText] using h
  rw [h0, h5, h8]

theorem fields_clockText {front : List Char} (hfront : front.length = 11) {n : ℕ} (hn : n < 86400)
    (rest : List Char) :
    field (front ++ (clockText n ++ rest)) 11 2 * 3600 + field (front ++ (clockText n ++ rest)) 14 2 * 60 +
      field (front ++ (clockText n ++ rest)) 17 2 = n := by
  have hh : (padded 2 (n / 3600)).length = 2 := length_padded (by omega)
  have hm : (padded 2 (n / 60 % 60)).length = 2 := length_padded (by omega)
  have h11 : field (front ++ (clockText n ++ rest)) 11 2 = n / 3600 := by
    have h := field_padded front (':' :: (padded 2 (n / 60 % 60) ++ ':' :: padded 2 (n % 60)) ++ rest) 11 2
      (n / 3600) hfront (by omega)
    simpa [clockText] using h
  have h14 : field (front ++ (clockText n ++ rest)) 14 2 = n / 60 % 60 := by
    have h := field_padded (front ++ (padded 2 (n / 3600) ++ [':'])) (':' :: padded 2 (n % 60) ++ rest) 14 2
      (n / 60 % 60) (by simp [hfront, hh]) (by omega)
    simpa [clockText] using h
  have h17 : field (front ++ (clockText n ++ rest)) 17 2 = n % 60 := by
    have h := field_padded (front ++ (padded 2 (n / 3600) ++ ':' :: (padded 2 (n / 60 % 60) ++ [':'])))
      rest 17 2
      (n % 60) (by simp [hfront, hh, hm]) (by omega)
    simpa [clockText] using h
  rw [h11, h14, h17]
  omega

/-- A text of an instant up to the seconds. -/
def front (t : Datetime) : List Char :=
  dateText (dateOf (t.microseconds / 1000000)) ++ 'T' :: clockText (t.microseconds / 1000000 % 86400)

theorem length_dateText_dateOf (t : Datetime) : (dateText (dateOf (t.microseconds / 1000000))).length =
    10 := by
  have hseconds : t.microseconds / 1000000 < 315537897600 := by
    have hrange := t.inRange
    unfold endOfTime at hrange
    omega
  obtain ⟨hmonth, hday⟩ := CountyFlow.Operations.dateOf_bounds (t.microseconds / 1000000)
  exact length_dateText (dateOf_year_lt hseconds) hmonth hday

theorem length_front (t : Datetime) : (front t).length = 19 := by
  unfold front
  rw [List.length_append, List.length_cons, length_dateText_dateOf,
    length_clockText (Nat.mod_lt _ (by decide))]

/-- The seconds of an instant, as a text has them. -/
def secondsOf (chars : List Char) : ℕ :=
  dayNumber ⟨field chars 0 4, field chars 5 2, field chars 8 2⟩ * 86400 +
    (field chars 11 2 * 3600 + field chars 14 2 * 60 + field chars 17 2)

theorem secondsOf_front (t : Datetime) (tail : List Char) :
    secondsOf (front t ++ tail) = t.microseconds / 1000000 := by
  have hseconds : t.microseconds / 1000000 < 315537897600 := by
    have hrange := t.inRange
    unfold endOfTime at hrange
    omega
  obtain ⟨hmonth, hday⟩ := CountyFlow.Operations.dateOf_bounds (t.microseconds / 1000000)
  have htext : front t ++ tail = dateText (dateOf (t.microseconds / 1000000)) ++
      'T' :: (clockText (t.microseconds / 1000000 % 86400) ++ tail) := by
    simp [front]
  have hdate := fields_dateText (dateOf_year_lt hseconds) hmonth hday
    ('T' :: (clockText (t.microseconds / 1000000 % 86400) ++ tail))
  have hdateT : (dateText (dateOf (t.microseconds / 1000000)) ++ ['T']).length = 11 := by
    simp [length_dateText_dateOf t]
  have hclock := fields_clockText hdateT (Nat.mod_lt (t.microseconds / 1000000) (by decide : 0 < 86400)) tail
  rw [List.append_assoc, List.singleton_append] at hclock
  unfold secondsOf
  rw [htext, hdate, hclock, dayNumber_dateOf]
  exact Nat.div_add_mod' _ _

theorem drop_front (t : Datetime) (tail : List Char) : (front t ++ tail).drop 19 = tail := by
  rw [← length_front t]
  exact List.drop_left

theorem fromisoformat_isoformat (t : Datetime) : fromisoformat (isoformat t) = some t := by
  set tail := (if t.microseconds % 1000000 = 0 then [] else '.' :: padded 6 (t.microseconds % 1000000)) ++
    "+00:00".toList with htail
  have htext : (isoformat t).toList = front t ++ tail := by
    simp [isoformat, front, htail]
  have hmicro : (if tail = "+00:00".toList then some 0
      else if tail.head? = some '.' ∧ tail.drop 7 = "+00:00".toList then some (field tail 1 6)
      else none) = some (t.microseconds % 1000000) := by
    by_cases hzero : t.microseconds % 1000000 = 0
    · simp [htail, hzero]
    · have hpadded : (padded 6 (t.microseconds % 1000000)).length = 6 := length_padded (by omega)
      have htail' : tail = '.' :: (padded 6 (t.microseconds % 1000000) ++ "+00:00".toList) := by
        simp [htail, hzero]
      have hne : ¬ tail = "+00:00".toList := by
        rw [htail']
        intro h
        have hhead := congrArg List.head? h
        revert hhead
        simp
      have hseven : tail.drop 7 = "+00:00".toList := by
        rw [htail', List.drop_succ_cons, List.drop_append_of_le_length (by omega),
          List.drop_of_length_le (by omega), List.nil_append]
      have hfield : field tail 1 6 = t.microseconds % 1000000 := by
        rw [htail']
        exact field_padded ['.'] _ 1 6 _ rfl (by omega)
      rw [if_neg hne, if_pos ⟨by rw [htail']; rfl, hseven⟩, hfield]
  have hseconds := secondsOf_front t tail
  unfold secondsOf at hseconds
  have hinstant : t.microseconds / 1000000 * 1000000 + t.microseconds % 1000000 = t.microseconds :=
    Nat.div_add_mod' _ _
  have hdrop : (isoformat t).toList.drop 19 = tail := by rw [htext, drop_front]
  simp only [fromisoformat, hdrop, hmicro]
  rw [htext, hseconds, hinstant]
  exact dif_pos t.inRange

example : isoformat ⟨63870292800123456, by decide⟩ = "2024-12-20T12:00:00.123456+00:00" := by decide +kernel

end CountyFlow.Security
