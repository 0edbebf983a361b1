import CountyFlow.Security.Isoformat

/-!
# Aware datetimes

The times of a memory command.  A `datetime` is held by its clock, what it shows without regard to its
zone, and by the offset of its `tzinfo` there.  A zone other than a `datetime.timezone` can show the same
clock twice; `fold` then says which of the two is meant, and the offset depends on it.
-/

namespace CountyFlow.Memory

open CountyFlow.Operations (padded intOf_padded length_padded)
open CountyFlow.Security (Datetime endOfTime field field_padded front length_front secondsOf secondsOf_front
  drop_front)

/-! ### Zones -/

def dayMicroseconds : ℕ := 86400000000

/-- What `utcoffset` gives, in microseconds: less than a day. -/
structure Offset where
  microseconds : ℤ
  bounded : microseconds.natAbs < dayMicroseconds
  deriving DecidableEq

/-- A `tzinfo` at a clock: a `datetime.timezone`, or an object of another class with the offset it has
there and whether that depends on `fold`. -/
inductive Zone where
  | fixed (offset : Offset)
  | other (object : ℕ) (offset : Offset) (folds : Bool)
  deriving DecidableEq

def Zone.offset : Zone → Offset
  | .fixed offset | .other _ offset _ => offset

def Zone.folds : Zone → Bool
  | .fixed _ => false
  | .other _ _ folds => folds

/-- The two are one object of another class. -/
def Zone.same : Zone → Zone → Bool
  | .other a _ _, .other b _ _ => a = b
  | _, _ => false

/-- A `datetime`; without a zone, or one that gives no offset, it is naive. -/
structure GivenDatetime where
  clock : Datetime
  zone : Option Zone
  deriving DecidableEq

structure AwareDatetime where
  clock : Datetime
  zone : Zone
  deriving DecidableEq

def AwareDatetime.given (t : AwareDatetime) : GivenDatetime := ⟨t.clock, some t.zone⟩

/-- `_aware`, of a time that is given. -/
def aware (t : GivenDatetime) (fieldName : String) : Except String AwareDatetime :=
  match t.zone with
  | none => .error (fieldName ++ " must be timezone-aware")
  | some zone => .ok ⟨t.clock, zone⟩

theorem aware_ok {t : GivenDatetime} {fieldName : String} {a : AwareDatetime}
    (h : aware t fieldName = .ok a) :
    t = a.given := by
  unfold aware at h
  obtain ⟨clock, zone⟩ := t
  cases zone with
  | none => cases h
  | some zone =>
    cases h
    rfl

namespace AwareDatetime

/-- The microseconds of the time in UTC. -/
def instant (t : AwareDatetime) : ℤ := t.clock.microseconds - t.zone.offset.microseconds

/-- `a == b`. -/
def equals (a b : AwareDatetime) : Bool :=
  if a.zone.same b.zone then a.clock = b.clock
  else !a.zone.folds && !b.zone.folds && a.instant = b.instant

end AwareDatetime

/-! ### Texts -/

/-- Microseconds behind a point, left out where there are none. -/
def microText (micro : ℕ) : List Char := if micro = 0 then [] else '.' :: padded 6 micro

/-- An offset without its sign: seconds and microseconds are left out where there are none. -/
def offsetClock (n : ℕ) : List Char :=
  padded 2 (n / 3600000000) ++ ':' :: (padded 2 (n / 60000000 % 60) ++
    if n % 60000000 = 0 then [] else ':' :: (padded 2 (n / 1000000 % 60) ++ microText (n % 1000000)))

/-- `_format_offset`. -/
def offsetText (offset : Offset) : List Char :=
  (if offset.microseconds < 0 then '-' else '+') :: offsetClock offset.microseconds.natAbs

def isoformat (t : AwareDatetime) : String :=
  String.ofList (front t.clock ++ (microText (t.clock.microseconds % 1000000) ++ offsetText t.zone.offset))

/-- Microseconds behind a point, if there is one, and what follows them. -/
def readMicro (text : List Char) : ℕ × List Char :=
  if text.head? = some '.' then (field text 1 6, text.drop 7) else (0, text)

/-- An offset without its sign. -/
def readOffsetClock (text : List Char) : ℕ :=
  let minutes := field text 0 2 * 3600000000 + field text 3 2 * 60000000
  let rest := text.drop 5
  if rest.head? = some ':' then minutes + field rest 1 2 * 1000000 + (readMicro (rest.drop 3)).1
  else minutes

/-- An offset behind its sign; `none` where there is no sign or the offset has a day. -/
def readOffset : List Char → Option Offset
  | sign :: text =>
    let n := readOffsetClock text
    if hbounded : n < dayMicroseconds then
      if sign = '-' then some ⟨-n, by simpa using hbounded⟩
      else if sign = '+' then some ⟨n, by simpa using hbounded⟩
      else none
    else none
  | [] => none

/-- `fromisoformat`, of a text in a form that `isoformat` writes; `none` for a `ValueError`. -/
def fromisoformat (text : String) : Option AwareDatetime :=
  let chars := text.toList
  let (micro, rest) := readMicro (chars.drop 19)
  let clock := secondsOf chars * 1000000 + micro
  match readOffset rest with
  | none => none
  | some offset => if h : clock < endOfTime then some ⟨⟨clock, h⟩, .fixed offset⟩ else none

/-! ### Texts read back -/

theorem readMicro_microText {micro : ℕ} (h : micro < 1000000) {rest : List Char}
    (hrest : rest.head? ≠ some '.') :
    readMicro (microText micro ++ rest) = (micro, rest) := by
  unfold microText
  split
  · rename_i hzero
    unfold readMicro
    rw [List.nil_append, if_neg hrest, hzero]
  · have hlength : (padded 6 micro).length = 6 := length_padded (by omega)
    have hfield : field ('.' :: (padded 6 micro ++ rest)) 1 6 = micro :=
      field_padded ['.'] rest 1 6 micro rfl (by omega)
    have hdrop : ('.' :: (padded 6 micro ++ rest)).drop 7 = rest := by
      rw [List.drop_succ_cons]
      exact List.drop_left' hlength
    unfold readMicro
    rw [List.cons_append, if_pos List.head?_cons, hfield, hdrop]

theorem readOffsetClock_offsetClock {n : ℕ} (h : n < dayMicroseconds) : readOffsetClock (offsetClock n) =
    n := by
  unfold dayMicroseconds at h
  have hhours : (padded 2 (n / 3600000000)).length = 2 := length_padded (by omega)
  have hminutes : (padded 2 (n / 60000000 % 60)).length = 2 := length_padded (by omega)
  unfold offsetClock
  set tail := (if n % 60000000 = 0 then []
    else ':' :: (padded 2 (n / 1000000 % 60) ++ microText (n % 1000000))) with htail
  have h0 : field (padded 2 (n / 3600000000) ++ ':' :: (padded 2 (n / 60000000 % 60) ++ tail)) 0 2 =
      n / 3600000000 :=
    field_padded [] _ 0 2 _ rfl (by omega)
  have h3 : field (padded 2 (n / 3600000000) ++ ':' :: (padded 2 (n / 60000000 % 60) ++ tail)) 3 2 =
      n / 60000000 % 60 := by
    have h := field_padded (padded 2 (n / 3600000000) ++ [':']) tail 3 2 (n / 60000000 % 60)
      (by simp [hhours]) (by omega)
    simpa using h
  have hdrop : (padded 2 (n / 3600000000) ++ ':' :: (padded 2 (n / 60000000 % 60) ++ tail)).drop 5 =
    tail := by
    have hfront : (padded 2 (n / 3600000000) ++ ':' :: padded 2 (n / 60000000 % 60)).length = 5 := by
      simp [hhours, hminutes]
    rw [show padded 2 (n / 3600000000) ++ ':' :: (padded 2 (n / 60000000 % 60) ++ tail) =
      (padded 2 (n / 3600000000) ++ ':' :: padded 2 (n / 60000000 % 60)) ++ tail by simp]
    exact List.drop_left' hfront
  simp only [readOffsetClock, h0, h3, hdrop]
  by_cases hzero : n % 60000000 = 0
  · have hnil : tail = [] := by rw [htail, if_pos hzero]
    rw [hnil]
    simp only [List.head?_nil, reduceCtorEq, if_false]
    omega
  · have hcons : tail = ':' :: (padded 2 (n / 1000000 % 60) ++ microText (n % 1000000)) := by
      rw [htail, if_neg hzero]
    have hseconds : (padded 2 (n / 1000000 % 60)).length = 2 := length_padded (by omega)
    have h1 : field (':' :: (padded 2 (n / 1000000 % 60) ++ microText (n % 1000000))) 1 2 =
      n / 1000000 % 60 :=
      field_padded [':'] _ 1 2 _ rfl (by omega)
    have hthree : (':' :: (padded 2 (n / 1000000 % 60) ++ microText (n % 1000000))).drop 3 =
        microText (n % 1000000) := by
      rw [List.drop_succ_cons]
      exact List.drop_left' hseconds
    have hmicro : readMicro (microText (n % 1000000) ++ []) = (n % 1000000, []) :=
      readMicro_microText (Nat.mod_lt _ (by decide)) (by simp)
    rw [List.append_nil] at hmicro
    rw [hcons, h1, hthree, hmicro]
    simp only [List.head?_cons, if_true]
    omega

theorem readOffset_offsetText (offset : Offset) : readOffset (offsetText offset) = some offset := by
  obtain ⟨o, hbounded⟩ := offset
  have hread := readOffsetClock_offsetClock hbounded
  simp only [offsetText, readOffset, hread, dif_pos hbounded]
  by_cases hnegative : o < 0
  · rw [if_pos hnegative, if_pos rfl]
    congr 2
    omega
  · rw [if_neg hnegative, if_neg (by decide), if_pos rfl]
    congr 2
    omega

theorem fromisoformat_isoformat (t : AwareDatetime) :
    fromisoformat (isoformat t) = some ⟨t.clock, .fixed t.zone.offset⟩ := by
  have hhead : (offsetText t.zone.offset).head? ≠ some '.' := by
    unfold offsetText
    split <;> simp
  have hmicro := readMicro_microText (Nat.mod_lt t.clock.microseconds (by decide : 0 < 1000000)) hhead
  have hparts : t.clock.microseconds / 1000000 * 1000000 + t.clock.microseconds % 1000000 =
    t.clock.microseconds :=
    Nat.div_add_mod' _ _
  simp only [fromisoformat, isoformat, String.toList_ofList, drop_front, hmicro, readOffset_offsetText,
    secondsOf_front, hparts]
  exact dif_pos t.clock.inRange

theorem equals_read (t : AwareDatetime) :
    AwareDatetime.equals ⟨t.clock, .fixed t.zone.offset⟩ t = !t.zone.folds := by
  obtain ⟨clock, zone⟩ := t
  cases zone <;> simp [AwareDatetime.equals, Zone.same, Zone.folds, AwareDatetime.instant, Zone.offset]

end CountyFlow.Memory
