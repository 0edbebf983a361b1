import Mathlib.Algebra.Ring.Nat
import Mathlib.Data.List.Sort
import Mathlib.Data.Rat.Defs
import Mathlib.Algebra.Order.Ring.Unbundled.Rat
import Mathlib.Algebra.BigOperators.Group.List.Basic
import CountyFlow.Core.Schema

/-!
# JSON documents of Python values

What `json.dumps` with sorted keys and without spaces makes of a Python value, and the copy that
`json.loads` makes of such a text.  A float is held by its `repr`, which `float` reads as the same number.
-/

namespace CountyFlow.Core

/-! ### Python values -/

/-- A key of a dictionary.  A `bool`, an `int` or a `float` is held by its number and by the text that
`json.dumps` writes; `other` is a key that it refuses. -/
inductive Key where
  | str (s : String)
  | num (number : ℚ) (text : String)
  | none
  | other
  deriving DecidableEq

namespace Key

/-- The text that `json.dumps` makes of the key. -/
def name : Key → Option String
  | .str s => some s
  | .num _ text => some text
  | .none => some "null"
  | .other => Option.none

/-- `a < b` raises no `TypeError`. -/
def comparable : Key → Key → Bool
  | .str _, .str _ | .num _ _, .num _ _ => true
  | _, _ => false

def le : Key → Key → Bool
  | .str a, .str b => a ≤ b
  | .num a _, .num b _ => a ≤ b
  | _, _ => true

end Key

/-- A Python value: a list or a tuple is a `list`; `nonfinite` is a float that is not finite, and `object`
what `json.dumps` does not know. -/
inductive Given where
  | none
  | bool (b : Bool)
  | int (z : ℤ)
  | float (text : String)
  | nonfinite
  | str (s : String)
  | list (items : List Given)
  | dict (entries : List (Key × Given))
  | object

/-! ### Texts -/

def bytes (text : List Char) : ℕ := (text.map Char.utf8Size).sum

theorem bytes_append (a b : List Char) : bytes (a ++ b) = bytes a + bytes b := by
  simp [bytes]

theorem bytes_cons (c : Char) (text : List Char) : bytes (c :: text) = c.utf8Size + bytes text := by
  simp [bytes]

/-- What a character is written as in a string. -/
def escaped (c : Char) : List Char :=
  if c = '"' then ['\\', '"']
  else if c = '\\' then ['\\', '\\']
  else if c = '\n' then ['\\', 'n']
  else if c = '\r' then ['\\', 'r']
  else if c = '\t' then ['\\', 't']
  else if c.toNat = 8 then ['\\', 'b']
  else if c.toNat = 12 then ['\\', 'f']
  else if c.toNat < 32 then ['\\', 'u', '0', '0', (c.toNat / 16).digitChar, (c.toNat % 16).digitChar]
  else [c]

def quoted (s : String) : List Char := '"' :: (s.toList.flatMap escaped ++ ['"'])

/-- `int.__repr__`, which does not write more than 4300 digits. -/
def intText (z : ℤ) : Option (List Char) :=
  if 4300 < (Nat.toDigits 10 z.natAbs).length then none
  else some ((if z < 0 then ['-'] else []) ++ Nat.toDigits 10 z.natAbs)

def commas (texts : List (List Char)) : List Char := [','].intercalate texts

/-- A text between brackets. -/
def enclosed (first last : Char) (text : List Char) : List Char := first :: (text ++ [last])

namespace Given

mutual

/-- `json.dumps(value, ensure_ascii=False, sort_keys=True, separators=(",", ":"), allow_nan=False)`. -/
def canonical : Given → Option (List Char)
  | .none => some "null".toList
  | .bool b => some (if b then "true".toList else "false".toList)
  | .int z => intText z
  | .float text => some text.toList
  | .nonfinite | .object => Option.none
  | .str s => some (quoted s)
  | .list items => (canonicalItems items).map fun texts => enclosed '[' ']' (commas texts)
  | .dict entries =>
    if (entries.map Prod.fst).Pairwise (fun a b => a.comparable b = true) then
      (canonicalEntries entries).map fun texts =>
        enclosed '\x7b' '\x7d' (commas ((texts.insertionSort fun a b => a.1.le b.1 = true).map Prod.snd))
    else Option.none

def canonicalItems : List Given → Option (List (List Char))
  | [] => some []
  | item :: items => do
      let text ← canonical item
      let texts ← canonicalItems items
      some (text :: texts)

def canonicalEntries : List (Key × Given) → Option (List (Key × List Char))
  | [] => some []
  | (key, value) :: entries => do
      let name ← key.name
      let text ← canonical value
      let texts ← canonicalEntries entries
      some ((key, quoted name ++ ':' :: text) :: texts)

end

mutual

/-- `json.loads(json.dumps(value, ensure_ascii=False, allow_nan=False))`: keys become texts, of equal keys
the last one counts, and tuples become lists. -/
def copy : Given → Option Value
  | .none => some .none
  | .bool b => some (.bool b)
  | .int z => (intText z).map fun _ => .int z
  | .float text => some (.num text)
  | .nonfinite | .object => Option.none
  | .str s => some (.str s)
  | .list items => (copyItems items).map Value.list
  | .dict entries => (copyEntries entries).map fun pairs => .dict (State.update [] pairs)

def copyItems : List Given → Option (List Value)
  | [] => some []
  | item :: items => do
      let value ← copy item
      let values ← copyItems items
      some (value :: values)

def copyEntries : List (Key × Given) → Option State
  | [] => some []
  | (key, value) :: entries => do
      let name ← key.name
      let copied ← copy value
      let pairs ← copyEntries entries
      some ((name, copied) :: pairs)

end

end Given

namespace Value

mutual

def given : Value → Given
  | .none => .none
  | .bool b => .bool b
  | .int z => .int z
  | .num text => .float text
  | .str s => .str s
  | .list items => .list (givenItems items)
  | .dict entries => .dict (givenEntries entries)
  | .object _ => .object

def givenItems : List Value → List Given
  | [] => []
  | value :: values => given value :: givenItems values

def givenEntries : List (String × Value) → List (Key × Given)
  | [] => []
  | (key, value) :: entries => (.str key, given value) :: givenEntries entries

end

theorem givenItems_eq (values : List Value) : givenItems values = values.map given := by
  induction values with
  | nil => rfl
  | cons value values ih => rw [givenItems, ih, List.map_cons]

theorem givenEntries_eq (entries : List (String × Value)) :
    givenEntries entries = entries.map fun entry => (.str entry.1, entry.2.given) := by
  induction entries with
  | nil => rfl
  | cons entry entries ih => rw [givenEntries, ih, List.map_cons]

end Value

variable {s pairs : State} {key : String} {entry : String × Value}

namespace State

/-! ### Pairs put in one after the other -/

theorem set_of_notMem (h : key ∉ s.map Prod.fst) (value : Value) : s.set key value = s ++ [(key, value)] := by
  induction s with
  | nil => rfl
  | cons entry s ih =>
    rw [List.map_cons, List.mem_cons, not_or] at h
    rw [set, if_neg (Ne.symm h.1), ih h.2, List.cons_append]

theorem keys_set (s : State) (key : String) (value : Value) :
    (s.set key value).map Prod.fst = if key ∈ s.map Prod.fst then s.map Prod.fst else s.map Prod.fst ++
    [key] := by
  by_cases hmem : key ∈ s.map Prod.fst
  · rw [if_pos hmem]
    induction s with
    | nil => cases hmem
    | cons entry s ih =>
      simp only [set]
      split
      · rfl
      · rename_i hne
        have hs : key ∈ s.map Prod.fst := by simpa [Ne.symm hne] using hmem
        rw [List.map_cons, List.map_cons, ih hs]
  · rw [if_neg hmem, set_of_notMem hmem]
    simp

theorem mem_set {value : Value} (h : entry ∈ s.set key value) : entry ∈ s ∨ entry = (key, value) := by
  induction s with
  | nil => exact .inr (List.mem_singleton.mp h)
  | cons first s ih =>
    simp only [set] at h
    split at h
    · rename_i hkey
      rcases List.mem_cons.mp h with rfl | h
      · exact .inr (by rw [hkey])
      · exact .inl (List.mem_cons_of_mem _ h)
    · rcases List.mem_cons.mp h with rfl | h
      · exact .inl List.mem_cons_self
      · exact (ih h).imp_left (List.mem_cons_of_mem _)

theorem sum_set (cost : String × Value → ℕ) (s : State) (key : String) (value : Value) :
    ((s.set key value).map cost).sum ≤ (s.map cost).sum + cost (key, value) := by
  induction s with
  | nil => simp [set]
  | cons entry s ih =>
    obtain ⟨k, v⟩ := entry
    simp only [set]
    split
    · rename_i hkey
      subst hkey
      simp only [List.map_cons, List.sum_cons]
      omega
    · simp only [List.map_cons, List.sum_cons]
      omega

theorem mem_update (h : entry ∈ s.update pairs) : entry ∈ s ∨ entry ∈ pairs := by
  induction pairs generalizing s with
  | nil => exact .inl h
  | cons pair pairs ih =>
    rcases ih (s := s.set pair.1 pair.2) h with h | h
    · rcases mem_set h with h | rfl
      · exact .inl h
      · exact .inr List.mem_cons_self
    · exact .inr (List.mem_cons_of_mem _ h)

theorem nodup_update (hs : (s.map Prod.fst).Nodup) (pairs : State) :
    ((s.update pairs).map Prod.fst).Nodup := by
  induction pairs generalizing s with
  | nil => exact hs
  | cons pair pairs ih =>
    apply ih (s := s.set pair.1 pair.2)
    rw [keys_set]
    split
    · exact hs
    · rename_i hnew
      rw [List.nodup_append]
      refine ⟨hs, List.nodup_singleton _, ?_⟩
      intro key hkey key' hkey'
      rw [List.mem_singleton] at hkey'
      rintro rfl
      exact hnew (hkey' ▸ hkey)

theorem sum_update (cost : String × Value → ℕ) (s pairs : State) :
    ((s.update pairs).map cost).sum ≤ (s.map cost).sum + (pairs.map cost).sum := by
  induction pairs generalizing s with
  | nil => exact Nat.le_add_right _ _
  | cons pair pairs ih =>
    obtain ⟨key, value⟩ := pair
    have hset := sum_set cost s key value
    have hrest := ih (s.set key value)
    rw [List.map_cons, List.sum_cons]
    show (((s.set key value).update pairs).map cost).sum ≤ _
    omega

theorem update_of_nodup (h : ((s ++ pairs).map Prod.fst).Nodup) : s.update pairs = s ++ pairs := by
  induction pairs generalizing s with
  | nil => simp [update]
  | cons pair pairs ih =>
    have hnew : pair.1 ∉ s.map Prod.fst := by
      rw [List.map_append, List.nodup_append] at h
      intro hmem
      exact h.2.2 _ hmem _ (by simp) rfl
    show (s.set pair.1 pair.2).update pairs = _
    rw [set_of_notMem hnew, ih (by simpa using h)]
    simp

end State

/-! ### The length of a text -/

variable {values : List Value} {entries : List (Key × Given)}

namespace Given

mutual

def size : Given → ℕ
  | .none => 4
  | .bool b => if b then 4 else 5
  | .int z => bytes ((intText z).getD [])
  | .float text => bytes text.toList
  | .nonfinite | .object => 0
  | .str s => bytes (quoted s)
  | .list items => 2 + (sizeItems items + (items.length - 1))
  | .dict entries => 2 + (sizeEntries entries + (entries.length - 1))

def sizeItems : List Given → ℕ
  | [] => 0
  | item :: items => size item + sizeItems items

def sizeEntries : List (Key × Given) → ℕ
  | [] => 0
  | (key, value) :: entries => bytes (quoted (key.name.getD "")) + 1 + size value + sizeEntries entries

end

theorem bytes_commas (texts : List (List Char)) :
    bytes (commas texts) = (texts.map bytes).sum + (texts.length - 1) := by
  induction texts with
  | nil => rfl
  | cons text texts ih =>
    cases texts with
    | nil => simp [commas]
    | cons text' texts =>
      have hcons : commas (text :: text' :: texts) = text ++ ',' :: commas (text' :: texts) := by
        simp [commas, List.intercalate, List.intersperse]
      rw [hcons, bytes_append, bytes_cons, ih]
      simp only [List.map_cons, List.sum_cons, List.length_cons]
      have hcomma : (',').utf8Size = 1 := by decide
      omega

theorem bytes_enclosed {first last : Char} (hfirst : first.utf8Size = 1) (hlast : last.utf8Size = 1)
    (text : List Char) : bytes (enclosed first last text) = 2 + bytes text := by
  have hnil : bytes [] = 0 := rfl
  rw [enclosed, bytes_cons, bytes_append, bytes_cons, hfirst, hlast, hnil]
  omega

mutual

theorem canonical_size : ∀ (value : Given) {text : List Char}, value.canonical = some text →
    bytes text = value.size
  | .none, _, h => by
      cases h
      decide
  | .bool b, _, h => by
      cases h
      cases b <;> decide
  | .int z, _, h => by
      have hint : intText z = some _ := h
      simp [size, hint]
  | .float text, _, h => by
      cases h
      rfl
  | .nonfinite, _, h => by cases h
  | .object, _, h => by cases h
  | .str s, _, h => by
      cases h
      rfl
  | .list items, _, h => by
      obtain ⟨texts, hitems, rfl⟩ := Option.map_eq_some_iff.mp h
      obtain ⟨hsum, hlength⟩ := canonicalItems_size items hitems
      rw [bytes_enclosed (by decide) (by decide), bytes_commas, hsum, hlength, size]
  | .dict entries, _, h => by
      simp only [canonical] at h
      split at h
      · obtain ⟨texts, hentries, rfl⟩ := Option.map_eq_some_iff.mp h
        obtain ⟨hsum, hlength⟩ := canonicalEntries_size entries hentries
        have hperm := (texts.perm_insertionSort fun a b => a.1.le b.1 = true).map Prod.snd
        rw [bytes_enclosed (by decide) (by decide), bytes_commas, (hperm.map bytes).sum_eq, hperm.length_eq,
          List.length_map, hlength, hsum, size]
      · cases h

theorem canonicalItems_size : ∀ (items : List Given) {texts : List (List Char)},
    canonicalItems items = some texts → (texts.map bytes).sum = sizeItems items ∧ texts.length = items.length
  | [], _, h => by
      cases h
      exact ⟨rfl, rfl⟩
  | item :: items, _, h => by
      obtain ⟨text, hitem, h⟩ := Option.bind_eq_some_iff.mp h
      obtain ⟨texts, hitems, h⟩ := Option.bind_eq_some_iff.mp h
      cases h
      obtain ⟨hsum, hlength⟩ := canonicalItems_size items hitems
      have hsize := canonical_size item hitem
      simp only [List.map_cons, List.sum_cons, List.length_cons, sizeItems]
      omega

theorem canonicalEntries_size : ∀ (entries : List (Key × Given)) {texts : List (Key × List Char)},
    canonicalEntries entries = some texts →
      ((texts.map Prod.snd).map bytes).sum = sizeEntries entries ∧ texts.length = entries.length
  | [], _, h => by
      cases h
      exact ⟨rfl, rfl⟩
  | (key, value) :: entries, _, h => by
      obtain ⟨name, hname, h⟩ := Option.bind_eq_some_iff.mp h
      obtain ⟨text, hvalue, h⟩ := Option.bind_eq_some_iff.mp h
      obtain ⟨texts, hentries, h⟩ := Option.bind_eq_some_iff.mp h
      cases h
      obtain ⟨hsum, hlength⟩ := canonicalEntries_size entries hentries
      have hsize := canonical_size value hvalue
      have hcolon : (':').utf8Size = 1 := by decide
      simp only [List.map_cons, List.sum_cons, List.length_cons, sizeEntries, bytes_append, bytes_cons, hname,
        Option.getD_some, hcolon]
      omega

end

/-! ### Copies -/

/-- What a copy has: it is copied to itself, it has a canonical text, and that is not longer. -/
structure Copied (value : Given) (v : Value) : Prop where
  copy : v.given.copy = some v
  canonical : v.given.canonical.isSome
  size : v.given.size ≤ value.size

def CopiedEntry (entry : Key × Given) (pair : String × Value) : Prop :=
  entry.1.name = some pair.1 ∧ Copied entry.2 pair.2

theorem Copied.items {items : List Given} (h : List.Forall₂ Copied items values) :
    copyItems (values.map Value.given) = some values ∧ (canonicalItems (values.map Value.given)).isSome ∧
      sizeItems (values.map Value.given) ≤ sizeItems items := by
  induction h with
  | nil => exact ⟨rfl, rfl, le_rfl⟩
  | cons hvalue _ ih =>
    obtain ⟨hcopy, hcanonical, hsize⟩ := ih
    obtain ⟨text, htext⟩ := Option.isSome_iff_exists.mp hvalue.canonical
    obtain ⟨texts, htexts⟩ := Option.isSome_iff_exists.mp hcanonical
    refine ⟨?_, ?_, ?_⟩
    · simp [copyItems, hvalue.copy, hcopy]
    · simp [canonicalItems, htext, htexts]
    · exact Nat.add_le_add hvalue.size hsize

theorem Copied.list {items : List Given} (h : List.Forall₂ Copied items values) :
    Copied (.list items) (.list values) := by
  obtain ⟨hcopy, hcanonical, hsize⟩ := Copied.items h
  refine ⟨?_, ?_, ?_⟩
  · simp [Value.given, Value.givenItems_eq, Given.copy, hcopy]
  · simpa [Value.given, Value.givenItems_eq, Given.canonical] using hcanonical
  · have hlength := h.length_eq
    simp only [Value.given, Value.givenItems_eq, Given.size, List.length_map]
    omega

/-- The length of an entry of a copy. -/
def entrySize (pair : String × Value) : ℕ := bytes (quoted pair.1) + 1 + pair.2.given.size

theorem sizeEntries_given (pairs : State) :
    sizeEntries (pairs.map fun pair => (.str pair.1, pair.2.given)) = (pairs.map entrySize).sum := by
  induction pairs with
  | nil => rfl
  | cons pair pairs ih => simp only [List.map_cons, List.sum_cons, sizeEntries, ih, entrySize, Key.name,
      Option.getD_some]

theorem sum_entrySize (h : List.Forall₂ CopiedEntry entries pairs) :
    (pairs.map entrySize).sum ≤ sizeEntries entries := by
  induction h with
  | nil => exact le_rfl
  | cons hentry _ ih =>
    obtain ⟨hname, hvalue⟩ := hentry
    have hsize := hvalue.size
    simp only [List.map_cons, List.sum_cons, sizeEntries, entrySize, hname, Option.getD_some]
    omega

theorem copyEntries_given (h : ∀ pair ∈ pairs, pair.2.given.copy = some pair.2) :
    copyEntries (pairs.map fun pair => (.str pair.1, pair.2.given)) = some pairs := by
  induction pairs with
  | nil => rfl
  | cons pair pairs ih =>
    have hpairs := ih fun p hp => h p (List.mem_cons_of_mem _ hp)
    simp [copyEntries, Key.name, h pair List.mem_cons_self, hpairs]

theorem canonicalEntries_given (h : ∀ pair ∈ pairs, pair.2.given.canonical.isSome) :
    (canonicalEntries (pairs.map fun pair => (.str pair.1, pair.2.given))).isSome := by
  induction pairs with
  | nil => rfl
  | cons pair pairs ih =>
    obtain ⟨texts, htexts⟩ := Option.isSome_iff_exists.mp (ih fun p hp => h p (List.mem_cons_of_mem _ hp))
    obtain ⟨text, htext⟩ := Option.isSome_iff_exists.mp (h pair List.mem_cons_self)
    simp [canonicalEntries, Key.name, htext, htexts]

theorem canonical_dict (h : ∀ pair ∈ pairs, pair.2.given.canonical.isSome) :
    (Value.dict pairs).given.canonical.isSome := by
  have hcomparable : ((pairs.map fun pair => (Key.str pair.1, pair.2.given)).map Prod.fst).Pairwise
      (fun a b => a.comparable b = true) := by
    rw [List.map_map, List.pairwise_map]
    exact List.pairwise_of_forall fun _ _ => rfl
  simp only [Value.given, Value.givenEntries_eq, Given.canonical]
  rw [if_pos hcomparable, Option.isSome_map]
  exact canonicalEntries_given h

theorem CopiedEntry.of_mem (h : List.Forall₂ CopiedEntry entries pairs) {pair : String × Value}
    (hpair : pair ∈ pairs) : pair.2.given.copy = some pair.2 ∧ pair.2.given.canonical.isSome := by
  induction h with
  | nil => cases hpair
  | cons hentry _ ih =>
    rcases List.mem_cons.mp hpair with rfl | hpair
    · exact ⟨hentry.2.copy, hentry.2.canonical⟩
    · exact ih hpair

theorem Copied.dict (h : List.Forall₂ CopiedEntry entries pairs) :
    Copied (.dict entries) (.dict (State.update [] pairs)) := by
  have hmem : ∀ pair ∈ State.update [] pairs, pair.2.given.copy = some pair.2 ∧
    pair.2.given.canonical.isSome := by
    intro pair hpair
    rcases State.mem_update hpair with hnil | hpair
    · cases hnil
    · exact CopiedEntry.of_mem h hpair
  have hnodup : ((State.update [] pairs).map Prod.fst).Nodup :=
    State.nodup_update (s := []) List.nodup_nil pairs
  have hagain : State.update [] (State.update [] pairs) = State.update [] pairs :=
    State.update_of_nodup (s := []) hnodup
  have hcopy := copyEntries_given fun pair hpair => (hmem pair hpair).1
  refine ⟨?_, ?_, ?_⟩
  · simp [Value.given, Value.givenEntries_eq, Given.copy, hcopy, hagain]
  · exact canonical_dict fun pair hpair => (hmem pair hpair).2
  · have hsum := State.sum_update entrySize [] pairs
    have hcount : (State.update [] pairs).length ≤ pairs.length := by
      simpa only [List.map_const', List.sum_replicate_nat, Nat.mul_one, List.length_nil, Nat.zero_add]
        using State.sum_update (fun _ => 1) [] pairs
    have hsize := sum_entrySize h
    have hlength := h.length_eq
    rw [List.map_nil, List.sum_nil, Nat.zero_add] at hsum
    simp only [Value.given, Value.givenEntries_eq, Given.size, List.length_map, sizeEntries_given]
    omega

mutual

theorem copied_of_copy : ∀ (value : Given) {v : Value}, value.copy = some v → Copied value v
  | .none, _, h => by
      cases h
      exact ⟨rfl, rfl, le_rfl⟩
  | .bool b, _, h => by
      cases h
      exact ⟨rfl, rfl, le_rfl⟩
  | .int z, _, h => by
      obtain ⟨text, hint, rfl⟩ := Option.map_eq_some_iff.mp h
      exact ⟨h, by simp [Value.given, canonical, hint], le_rfl⟩
  | .float text, _, h => by
      cases h
      exact ⟨rfl, rfl, le_rfl⟩
  | .nonfinite, _, h => by cases h
  | .object, _, h => by cases h
  | .str s, _, h => by
      cases h
      exact ⟨rfl, rfl, le_rfl⟩
  | .list items, _, h => by
      obtain ⟨values, hitems, rfl⟩ := Option.map_eq_some_iff.mp h
      exact Copied.list (copied_of_copyItems items hitems)
  | .dict entries, _, h => by
      obtain ⟨pairs, hentries, rfl⟩ := Option.map_eq_some_iff.mp h
      exact Copied.dict (copied_of_copyEntries entries hentries)

theorem copied_of_copyItems : ∀ (items : List Given) {values : List Value}, copyItems items = some values →
    List.Forall₂ Copied items values
  | [], _, h => by
      cases h
      exact .nil
  | item :: items, _, h => by
      obtain ⟨value, hitem, h⟩ := Option.bind_eq_some_iff.mp h
      obtain ⟨values, hitems, h⟩ := Option.bind_eq_some_iff.mp h
      cases h
      exact .cons (copied_of_copy item hitem) (copied_of_copyItems items hitems)

theorem copied_of_copyEntries : ∀ (entries : List (Key × Given)) {pairs : State},
    copyEntries entries = some pairs → List.Forall₂ CopiedEntry entries pairs
  | [], _, h => by
      cases h
      exact .nil
  | (key, value) :: entries, _, h => by
      obtain ⟨name, hname, h⟩ := Option.bind_eq_some_iff.mp h
      obtain ⟨copied, hvalue, h⟩ := Option.bind_eq_some_iff.mp h
      obtain ⟨pairs, hentries, h⟩ := Option.bind_eq_some_iff.mp h
      cases h
      exact .cons ⟨hname, copied_of_copy value hvalue⟩ (copied_of_copyEntries entries hentries)

end

end Given

end CountyFlow.Core
