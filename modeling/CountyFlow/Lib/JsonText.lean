import Mathlib.Algebra.Ring.Nat
import Mathlib.Algebra.Ring.Int.Defs
import Mathlib.Data.List.TakeWhile
import CountyFlow.Lib.Runs

/-!
# JSON texts that are read

JSON over texts that are lists of code points, surrogates included.  The reader takes what a lenient
reader takes: of equal keys the last one counts, an escaped surrogate may stand alone, and `NaN` and the
infinities are numbers.  An integer of too many digits is refused.
-/

namespace CountyFlow.Lib

/-- A text: its code points. -/
abbrev Text := List ℕ

def codes (s : String) : Text := s.toList.map Char.toNat

/-- A JSON value; a number that is no integer is held by its text. -/
inductive Json where
  | null
  | bool (b : Bool)
  | int (z : ℤ)
  | float (text : Text)
  | str (text : Text)
  | list (items : List Json)
  | dict (entries : List (Text × Json))

/-- Why a text has no value. -/
inductive JsonError where
  | malformed
  | tooManyDigits
  deriving DecidableEq, Repr

variable {n k close : ℕ} {ds text rest : Text} {z : ℤ} {v : Json} {entry : Text × Json}

namespace Json

/-! ### Characters -/

abbrev quote : ℕ := 34
abbrev comma : ℕ := 44
abbrev minus : ℕ := 45
abbrev colon : ℕ := 58
abbrev openBracket : ℕ := 91
abbrev backslash : ℕ := 92
abbrev closeBracket : ℕ := 93
abbrev openBrace : ℕ := 123
abbrev closeBrace : ℕ := 125

def isBlank (c : ℕ) : Bool := c = 32 ∨ c = 9 ∨ c = 10 ∨ c = 13

def isDigit (c : ℕ) : Bool := 48 ≤ c ∧ c ≤ 57

theorem isDigit_iff {c : ℕ} : isDigit c = true ↔ 48 ≤ c ∧ c ≤ 57 := by
  simp [isDigit]

def hexDigit (c : ℕ) : Option ℕ :=
  if isDigit c then some (c - 48)
  else if 65 ≤ c ∧ c ≤ 70 then some (c - 55)
  else if 97 ≤ c ∧ c ≤ 102 then some (c - 87)
  else none

/-- The character that stands for a digit. -/
def digitCode (d : ℕ) : ℕ := if d < 10 then d + 48 else d + 87

/-- A text without the blanks at its front. -/
def skip (text : Text) : Text := text.dropWhile isBlank

/-! ### Strings -/

/-- The code point of four hexadecimal digits. -/
def hexCode (a b c d : ℕ) : Option ℕ := do
  let a ← hexDigit a
  let b ← hexDigit b
  let c ← hexDigit c
  let d ← hexDigit d
  some (((a * 16 + b) * 16 + c) * 16 + d)

/-- What a backslash makes of the next character. -/
def unescaped (e : ℕ) : Option ℕ :=
  [(34, 34), (92, 92), (47, 47), (98, 8), (102, 12), (110, 10), (114, 13), (116, 9)].lookup e

/-- The characters of a string up to its end, each with whether it is written as a code, and what
follows the string. -/
def characters : Text → Except JsonError (List (Bool × ℕ) × Text)
  | [] => .error .malformed
  | c :: rest =>
    if c = quote then .ok ([], rest)
    else if c = backslash then
      match rest with
      | [] => .error .malformed
      | e :: rest =>
        if e = 117 then
          match rest with
          | w :: x :: y :: z :: rest =>
            match hexCode w x y z with
            | none => .error .malformed
            | some code => (characters rest).map fun read => ((true, code) :: read.1, read.2)
          | _ => .error .malformed
        else
          match unescaped e with
          | none => .error .malformed
          | some code => (characters rest).map fun read => ((false, code) :: read.1, read.2)
    else if c < 32 then .error .malformed
    else (characters rest).map fun read => ((false, c) :: read.1, read.2)
termination_by structural text => text

def isHigh (c : ℕ) : Bool := 0xD800 ≤ c ∧ c ≤ 0xDBFF
def isLow (c : ℕ) : Bool := 0xDC00 ≤ c ∧ c ≤ 0xDFFF

/-- The text of the characters: two codes that make a surrogate pair are one code point. -/
def joined : List (Bool × ℕ) → Text
  | [] => []
  | [(_, a)] => [a]
  | (coded, a) :: (coded', b) :: rest =>
    if coded = true ∧ coded' = true ∧ isHigh a = true ∧ isLow b = true then
      (0x10000 + (a - 0xD800) * 0x400 + (b - 0xDC00)) :: joined rest
    else a :: joined ((coded', b) :: rest)

def string (text : Text) : Except JsonError (Text × Text) :=
  (characters text).map fun read => (joined read.1, read.2)

/-! ### Numbers -/

/-- An integer has no more digits. -/
def maxDigits : ℕ := 4300

def wholePart : Text → Option (Text × Text)
  | [] => none
  | c :: rest =>
    if c = 48 then some ([c], rest)
    else if isDigit c then some (c :: rest.takeWhile isDigit, rest.dropWhile isDigit)
    else none

def fraction : Text → Text × Text
  | p :: d :: rest =>
    if p = 46 ∧ isDigit d = true then (p :: d :: rest.takeWhile isDigit, rest.dropWhile isDigit)
    else ([], p :: d :: rest)
  | text => ([], text)

def sign : Text → Text × Text
  | s :: rest => if s = 43 ∨ s = minus then ([s], rest) else ([], s :: rest)
  | [] => ([], [])

def exponent : Text → Text × Text
  | e :: rest =>
    let digits := (sign rest).2.takeWhile isDigit
    if (e = 101 ∨ e = 69) ∧ digits ≠ [] then
      (e :: (sign rest).1 ++ digits, (sign rest).2.dropWhile isDigit)
    else ([], e :: rest)
  | [] => ([], [])

def ofDigits (digits : Text) : ℕ := digits.foldl (fun n c => n * 10 + (c - 48)) 0

/-- The number of its parts. -/
def numeral (negative : Bool) (digits point power : Text) : Except JsonError Json :=
  if point = [] ∧ power = [] then
    if maxDigits < digits.length then .error .tooManyDigits
    else .ok (.int (if negative then -(ofDigits digits : ℤ) else ofDigits digits))
  else .ok (.float ((if negative then [minus] else []) ++ digits ++ point ++ power))

/-- Whether a minus sign stands at the front, and the text behind it. -/
def unsigned : Text → Bool × Text
  | c :: rest => if c = minus then (true, rest) else (false, c :: rest)
  | [] => (false, [])

/-- A number; it ends where no digit, point or exponent follows. -/
def number (text : Text) : Except JsonError (Json × Text) :=
  match wholePart (unsigned text).2 with
  | none => .error .malformed
  | some (digits, rest) =>
    (numeral (unsigned text).1 digits (fraction rest).1 (exponent (fraction rest).2).1).map fun read =>
      (read, (exponent (fraction rest).2).2)

/-! ### Values -/

def names : List (Text × Json) :=
  [(codes "null", .null), (codes "true", .bool true), (codes "false", .bool false),
    (codes "NaN", .float (codes "NaN")), (codes "Infinity", .float (codes "Infinity")),
    (codes "-Infinity", .float (codes "-Infinity"))]

/-- A value that has a name, or a number. -/
def scalar (text : Text) : Except JsonError (Json × Text) :=
  match names.find? fun entry => entry.1.isPrefixOf text with
  | some (name, value) => .ok (value, text.drop name.length)
  | none => number text

/-- The entries of a dictionary with an entry put in. -/
def put (key : Text) (value : Json) : List (Text × Json) → List (Text × Json)
  | [] => [(key, value)]
  | entry :: entries => if entry.1 = key then (key, value) :: entries else entry :: put key value entries

/-- The dictionary of the members in the order in which they are read. -/
def ofMembers (members : List (Text × Json)) : List (Text × Json) :=
  members.foldl (fun entries member => put member.1 member.2 entries) []

def after (c : ℕ) : Text → Except JsonError Text
  | [] => .error .malformed
  | first :: rest => if first = c then .ok rest else .error .malformed

section Enclosed

variable {α : Type}

def enclosed (close : ℕ) (build : List α → Json) (elements : Text → Except JsonError (List α × Text))
    (text : Text) : Except JsonError (Json × Text) :=
  match skip text with
  | [] => .error .malformed
  | c :: rest =>
    if c = close then .ok (build [], rest)
    else (elements (c :: rest)).map fun read => (build read.1, read.2)

/-- After an element: the closing bracket, or a comma and more elements. -/
def following (close : ℕ) (element : α) (elements : Text → Except JsonError (List α × Text)) (text : Text) :
    Except JsonError (List α × Text) :=
  match skip text with
  | [] => .error .malformed
  | c :: rest =>
    if c = close then .ok ([element], rest)
    else if c = comma then (elements (skip rest)).map fun read => (element :: read.1, read.2)
    else .error .malformed

end Enclosed

mutual

def value : ℕ → Text → Except JsonError (Json × Text)
  | 0, _ => .error .malformed
  | _ + 1, [] => .error .malformed
  | fuel + 1, c :: rest =>
    if c = quote then (string rest).map fun read => (.str read.1, read.2)
    else if c = openBrace then enclosed closeBrace (fun read => .dict (ofMembers read)) (members fuel) rest
    else if c = openBracket then enclosed closeBracket .list (items fuel) rest
    else scalar (c :: rest)

/-- The members of a dictionary up to its end. -/
def members : ℕ → Text → Except JsonError (List (Text × Json) × Text)
  | 0, _ => .error .malformed
  | fuel + 1, text =>
    after quote text >>= fun text =>
      string text >>= fun key =>
        after colon (skip key.2) >>= fun text =>
          value fuel (skip text) >>= fun member =>
            following closeBrace (key.1, member.1) (members fuel) member.2

def items : ℕ → Text → Except JsonError (List Json × Text)
  | 0, _ => .error .malformed
  | fuel + 1, text => value fuel text >>= fun item => following closeBracket item.1 (items fuel) item.2

end

/-- The value of a text: nothing but blanks stands around it, and no byte order mark before it. -/
def loads (text : Text) : Except JsonError Json :=
  if text.head? = some 0xFEFF then .error .malformed
  else value (2 * text.length) (skip text) >>= fun read =>
    if skip read.2 = [] then .ok read.1 else .error .malformed

theorem map_eq_ok {ε β γ : Type*} {x : Except ε β} {f : β → γ} {c : γ} :
    x.map f = .ok c ↔ ∃ b, x = .ok b ∧ f b = c := by
  cases x with
  | error e => simp [Except.map]
  | ok b => simp [Except.map]

/-! ### Integers that are read -/

def digits (n : ℕ) : Text :=
  if n < 10 then [n + 48] else digits (n / 10) ++ [n % 10 + 48]

theorem digits_small (h : n < 10) : digits n = [n + 48] := by
  rw [digits, if_pos h]

theorem digits_large (h : 10 ≤ n) : digits n = digits (n / 10) ++ [n % 10 + 48] := by
  rw [digits, if_neg (by omega)]

theorem length_digits_le (hk : 0 < k) (h : n < 10 ^ k) : (digits n).length ≤ k := by
  induction k generalizing n with
  | zero => cases hk
  | succ k ih =>
    by_cases hn : n < 10
    · rw [digits_small hn]
      exact Nat.succ_le_succ (Nat.zero_le _)
    · have hquotient : n / 10 < 10 ^ k := by
        rw [Nat.pow_succ] at h
        omega
      have hpos : 0 < k := by
        rcases Nat.eq_zero_or_pos k with rfl | hpos
        · simp at h
          omega
        · exact hpos
      rw [digits_large (by omega), List.length_append, List.length_singleton]
      exact Nat.succ_le_succ (ih hpos hquotient)

theorem foldl_digits_lt (h : ∀ c ∈ ds, isDigit c = true) (n : ℕ) :
    ds.foldl (fun n c => n * 10 + (c - 48)) n < (n + 1) * 10 ^ ds.length := by
  induction ds generalizing n with
  | nil => simp
  | cons c ds ih =>
    have hc := isDigit_iff.mp (h c List.mem_cons_self)
    have hrest := ih (fun c hc => h c (List.mem_cons_of_mem _ hc)) (n * 10 + (c - 48))
    rw [List.foldl_cons, List.length_cons, Nat.pow_succ']
    calc ds.foldl (fun n c => n * 10 + (c - 48)) (n * 10 + (c - 48))
        < (n * 10 + (c - 48) + 1) * 10 ^ ds.length := hrest
      _ ≤ ((n + 1) * 10) * 10 ^ ds.length := Nat.mul_le_mul_right _ (by omega)
      _ = (n + 1) * (10 * 10 ^ ds.length) := by rw [Nat.mul_assoc]

/-- An integer that is not too long to be read or written. -/
def Short (z : ℤ) : Prop := (digits z.natAbs).length ≤ maxDigits

instance (z : ℤ) : Decidable (Short z) := inferInstanceAs (Decidable (_ ≤ _))

theorem short_small (h : z.natAbs < 10) : Short z := by
  rw [Short, digits_small h]
  show 1 ≤ maxDigits
  decide

theorem lt_length_digits (h : 10 ^ k ≤ n) : k < (digits n).length := by
  induction k generalizing n with
  | zero =>
    by_cases hn : n < 10
    · rw [digits_small hn]
      exact Nat.one_pos
    · rw [digits_large (by omega), List.length_append]
      exact Nat.succ_pos _
  | succ k ih =>
    rw [Nat.pow_succ] at h
    have hpos : 0 < 10 ^ k := Nat.pow_pos (by decide)
    rw [digits_large (by omega), List.length_append, List.length_singleton]
    exact Nat.succ_lt_succ (ih (by omega))

/-- **The integers that are not too long.** -/
theorem short_iff : Short z ↔ z.natAbs < 10 ^ maxDigits := by
  constructor
  · intro h
    by_contra hle
    exact absurd (lt_length_digits (not_lt.mp hle)) (not_lt.mpr h)
  · intro h
    exact length_digits_le (by decide) h

/-- A positive integer of 64 bits is not too long. -/
theorem short_of_lt (hpos : 1 ≤ z) (h : z < 2 ^ 63) : Short z := by
  have hnineteen : 10 ^ 19 ≤ 10 ^ maxDigits := Nat.pow_le_pow_right (by decide) (by decide)
  exact short_iff.mpr (lt_of_lt_of_le (by omega) hnineteen)

theorem wholePart_digit (h : wholePart text = some (ds, rest)) :
    0 < ds.length ∧ ∀ c ∈ ds, isDigit c = true := by
  cases text with
  | nil => cases h
  | cons c text =>
    simp only [wholePart] at h
    split at h
    · rename_i hc
      obtain ⟨rfl, -⟩ := Prod.mk.inj (Option.some.inj h)
      refine ⟨Nat.one_pos, fun d hd => ?_⟩
      rw [List.mem_singleton.mp hd, hc]
      rfl
    · split at h
      · rename_i hc
        obtain ⟨rfl, -⟩ := Prod.mk.inj (Option.some.inj h)
        refine ⟨Nat.succ_pos _, fun d hd => ?_⟩
        rcases List.mem_cons.mp hd with rfl | hd
        · exact hc
        · exact List.mem_takeWhile_imp hd
      · cases h

/-- An integer is short, and so are the integers among the entries of a dictionary. -/
def ShortIn : Json → Prop
  | .int z => Short z
  | .dict entries => ∀ entry ∈ entries, ∀ z, entry.2 = .int z → Short z
  | _ => True

theorem numeral_shortIn {negative : Bool} {point power : Text} (hpos : 0 < ds.length)
    (hdigits : ∀ c ∈ ds, isDigit c = true) (h : numeral negative ds point power = .ok v) : ShortIn v := by
  simp only [numeral] at h
  split at h
  · split at h
    · cases h
    · rename_i hshort
      cases h
      have habs : ∀ n : ℕ, (if negative = true then -(n : ℤ) else n).natAbs = n := by
        intro n
        split
        · exact Int.natAbs_neg _
        · rfl
      have hlt := foldl_digits_lt hdigits 0
      rw [Nat.zero_add, Nat.one_mul] at hlt
      show (digits _).length ≤ maxDigits
      rw [habs]
      exact (length_digits_le hpos hlt).trans (not_lt.mp hshort)
  · cases h
    trivial

theorem mem_put {key : Text} {member : Json} {entries : List (Text × Json)}
    (h : entry ∈ put key member entries) : entry ∈ entries ∨ entry = (key, member) := by
  induction entries with
  | nil => exact .inr (List.mem_singleton.mp h)
  | cons first entries ih =>
    simp only [put] at h
    split at h
    · rcases List.mem_cons.mp h with rfl | h
      · exact .inr rfl
      · exact .inl (List.mem_cons_of_mem _ h)
    · rcases List.mem_cons.mp h with rfl | h
      · exact .inl List.mem_cons_self
      · exact (ih h).imp_left (List.mem_cons_of_mem _)

theorem mem_foldl_put {members done : List (Text × Json)}
    (h : entry ∈ members.foldl (fun entries member => put member.1 member.2 entries) done) :
    entry ∈ done ∨ entry ∈ members := by
  induction members generalizing done with
  | nil => exact .inl h
  | cons member members ih =>
    rcases @ih (put member.1 member.2 done) h with hdone | hmore
    · rcases mem_put hdone with hdone | rfl
      · exact .inl hdone
      · exact .inr List.mem_cons_self
    · exact .inr (List.mem_cons_of_mem _ hmore)

theorem mem_ofMembers {members : List (Text × Json)} (h : entry ∈ ofMembers members) : entry ∈ members :=
  (mem_foldl_put h).resolve_left List.not_mem_nil

theorem names_shortIn : ∀ entry ∈ names, ShortIn entry.2 := by
  intro entry hentry
  simp only [names, List.mem_cons, List.not_mem_nil, or_false] at hentry
  rcases hentry with rfl | rfl | rfl | rfl | rfl | rfl <;> trivial

theorem scalar_shortIn (h : scalar text = .ok (v, rest)) : ShortIn v := by
  unfold scalar at h
  split at h
  · rename_i name value hfind
    obtain ⟨rfl, -⟩ := Prod.mk.inj (Except.ok.inj h)
    exact names_shortIn _ (List.mem_of_find?_eq_some hfind)
  · simp only [number] at h
    split at h
    · cases h
    · rename_i ds rest' hwhole
      obtain ⟨read, hread, hmap⟩ := map_eq_ok.mp h
      obtain ⟨rfl, -⟩ := Prod.mk.inj hmap
      obtain ⟨hpos, hdigits⟩ := wholePart_digit hwhole
      exact numeral_shortIn hpos hdigits hread

section Enclosed

variable {α : Type} {elements : Text → Except JsonError (List α × Text)}

theorem enclosed_cases {build : List α → Json} (h : enclosed close build elements text = .ok (v, rest)) :
    ∃ read, v = build read ∧ (read = [] ∨ ∃ inner rest', elements inner = .ok (read, rest')) := by
  unfold enclosed at h
  split at h
  · cases h
  split at h
  · obtain ⟨rfl, -⟩ := Prod.mk.inj (Except.ok.inj h)
    exact ⟨[], rfl, .inl rfl⟩
  · obtain ⟨⟨read, rest'⟩, hread, hmap⟩ := map_eq_ok.mp h
    obtain ⟨rfl, -⟩ := Prod.mk.inj hmap
    exact ⟨read, rfl, .inr ⟨_, rest', hread⟩⟩

theorem following_cases {element : α} {read : List α}
    (h : following close element elements text = .ok (read, rest)) :
    ∃ more, read = element :: more ∧ (more = [] ∨ ∃ inner rest', elements inner = .ok (more, rest')) := by
  unfold following at h
  split at h
  · cases h
  split at h
  · obtain ⟨rfl, -⟩ := Prod.mk.inj (Except.ok.inj h)
    exact ⟨[], rfl, .inl rfl⟩
  split at h
  · obtain ⟨⟨more, rest'⟩, hmore, hmap⟩ := map_eq_ok.mp h
    obtain ⟨rfl, -⟩ := Prod.mk.inj hmap
    exact ⟨more, rfl, .inr ⟨_, rest', hmore⟩⟩
  · cases h

end Enclosed

theorem all_short (fuel : ℕ) : (∀ text v rest, value fuel text = .ok (v, rest) → ShortIn v) ∧
    ∀ text read rest, members fuel text = .ok (read, rest) → ∀ member ∈ read, ShortIn member.2 := by
  induction fuel with
  | zero => exact ⟨fun _ _ _ h => (by cases h), fun _ _ _ h => (by cases h)⟩
  | succ fuel ih =>
    obtain ⟨hvalue, hmembers⟩ := ih
    refine ⟨fun text v rest h => ?_, fun text read rest h => ?_⟩
    · cases text with
      | nil => cases h
      | cons c text =>
        simp only [value] at h
        split at h
        · obtain ⟨read, -, hmap⟩ := map_eq_ok.mp h
          rw [← (Prod.mk.inj hmap).1]
          trivial
        split at h
        · obtain ⟨read, rfl, hread⟩ := enclosed_cases h
          intro entry hentry z hz
          rcases hread with rfl | ⟨inner, rest', hread⟩
          · cases hentry
          · have hmember := hmembers inner read rest' hread entry (mem_ofMembers hentry)
            rw [hz] at hmember
            exact hmember
        split at h
        · obtain ⟨read, rfl, -⟩ := enclosed_cases h
          trivial
        · exact scalar_shortIn h
    · obtain ⟨text₁, -, h⟩ := bind_eq_ok.mp h
      obtain ⟨key, -, h⟩ := bind_eq_ok.mp h
      obtain ⟨text₃, -, h⟩ := bind_eq_ok.mp h
      obtain ⟨member, hmember, h⟩ := bind_eq_ok.mp h
      obtain ⟨more, rfl, hmore⟩ := following_cases h
      intro entry hentry
      rcases List.mem_cons.mp hentry with rfl | hentry
      · exact hvalue _ member.1 member.2 hmember
      · rcases hmore with rfl | ⟨inner, rest', hmore⟩
        · cases hentry
        · exact hmembers inner more rest' hmore entry hentry

/-- **The integers of a value that is read are short.** -/
theorem loads_shortIn (h : loads text = .ok v) : ShortIn v := by
  unfold loads at h
  split at h
  · cases h
  obtain ⟨⟨read, rest⟩, hvalue, h⟩ := bind_eq_ok.mp h
  split at h
  · cases h
    exact (all_short _).1 _ read rest hvalue
  · cases h

end Json

end CountyFlow.Lib
