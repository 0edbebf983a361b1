import Mathlib.Data.List.Dedup
import Mathlib.Data.Int.Notation

/-!
# Python values held in a graph state

The agent graph keeps its state in a `dict[str, Any]`.  `Value` is what such a dictionary can hold
here, `State` is the dictionary, and `State.get` is `dict.get`: the value of a key, or `None`.
Dictionaries inside a value are kept with their keys in one order, so that equality of values is
Python's.  `object` stands for a value `json.dumps` refuses.
-/

namespace CountyFlow.Core

/-- A Python value: `num` is a `Decimal` or a `float`, held by its text. -/
inductive Value where
  | none
  | bool (b : Bool)
  | int (z : ℤ)
  | num (text : String)
  | str (s : String)
  | list (items : List Value)
  | dict (entries : List (String × Value))
  | object (name : String)
  deriving Repr

namespace Value

mutual

def beq : Value → Value → Bool
  | .none, .none => true
  | .bool a, .bool b => a == b
  | .int a, .int b => a == b
  | .num a, .num b => a == b
  | .str a, .str b => a == b
  | .list a, .list b => beqList a b
  | .dict a, .dict b => beqEntries a b
  | .object a, .object b => a == b
  | _, _ => false

def beqList : List Value → List Value → Bool
  | [], [] => true
  | a :: as, b :: bs => beq a b && beqList as bs
  | _, _ => false

def beqEntries : List (String × Value) → List (String × Value) → Bool
  | [], [] => true
  | (k, a) :: as, (l, b) :: bs => k == l && (beq a b && beqEntries as bs)
  | _, _ => false

end

mutual

theorem beq_iff (a b : Value) : beq a b = true ↔ a = b := by
  cases a with
  | list xs => cases b <;> simp [beq, beqList_iff xs]
  | dict xs => cases b <;> simp [beq, beqEntries_iff xs]
  | _ => cases b <;> simp [beq]

theorem beqList_iff (as bs : List Value) : beqList as bs = true ↔ as = bs := by
  cases as with
  | nil => cases bs <;> simp [beqList]
  | cons a as => cases bs <;> simp [beqList, beq_iff a, beqList_iff as]

theorem beqEntries_iff (as bs : List (String × Value)) : beqEntries as bs = true ↔ as = bs := by
  cases as with
  | nil => cases bs <;> simp [beqEntries]
  | cons a as =>
    obtain ⟨k, v⟩ := a
    cases bs with
    | nil => simp [beqEntries]
    | cons b bs =>
      obtain ⟨l, w⟩ := b
      simp [beqEntries, beq_iff v, beqEntries_iff as, and_assoc]

end

instance : DecidableEq Value := fun a b => decidable_of_iff _ (beq_iff a b)

mutual

/-- `json.dumps` accepts the value. -/
def jsonSerializable : Value → Bool
  | .object _ => false
  | .list items => allSerializable items
  | .dict entries => entriesSerializable entries
  | _ => true

def allSerializable : List Value → Bool
  | [] => true
  | v :: vs => jsonSerializable v && allSerializable vs

def entriesSerializable : List (String × Value) → Bool
  | [] => true
  | (_, v) :: vs => jsonSerializable v && entriesSerializable vs

end

end Value

/-- A graph state: a `dict[str, Any]` in insertion order. -/
abbrev State := List (String × Value)

namespace State

/-- `state.get(key)`: a missing key and a key holding `None` give the same answer. -/
def get (s : State) (k : String) : Value := (s.lookup k).getD .none

/-- The keys on which `a.get` and `b.get` differ, as
`{key for key in set(a) | set(b) if a.get(key) != b.get(key)}` collects them. -/
def changedKeys (a b : State) : List String :=
  ((a.map Prod.fst ++ b.map Prod.fst).filter fun k => a.get k ≠ b.get k).dedup

/-- `json.dumps(state)` succeeds. -/
def jsonSerializable (s : State) : Bool := Value.entriesSerializable s

theorem mem_keys_of_get_ne {s : State} {k : String} (h : s.get k ≠ .none) : k ∈ s.map Prod.fst := by
  cases hk : s.lookup k with
  | none => exact absurd (by rw [get, hk]; rfl) h
  | some v =>
    obtain ⟨before, after, rfl, -⟩ := List.lookup_eq_some_iff.mp hk
    simp

theorem mem_changedKeys {a b : State} {k : String} : k ∈ changedKeys a b ↔ a.get k ≠ b.get k := by
  unfold changedKeys
  rw [List.mem_dedup, List.mem_filter, decide_eq_true_eq, and_iff_right_iff_imp]
  intro hne
  rw [List.mem_append]
  by_cases ha : a.get k = .none
  · exact .inr (mem_keys_of_get_ne fun hb => hne (ha.trans hb.symm))
  · exact .inl (mem_keys_of_get_ne ha)

end State

end CountyFlow.Core
