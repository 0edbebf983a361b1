import Mathlib.Data.Int.Notation
import Mathlib.Logic.Function.Basic

/-!
# A store whose keys expire

A key holds a value until a deadline.  Time is an argument of every reading, so that nothing has to
happen when a key expires.
-/

namespace CountyFlow.Lib

open Function

/-- For each key, its value and the time from which it is gone. -/
def Expiring (κ ν : Type*) := κ → Option (ν × ℤ)

namespace Expiring

variable {κ ν : Type*}

def empty : Expiring κ ν := fun _ => none

def get (s : Expiring κ ν) (now : ℤ) (k : κ) : Option ν :=
  match s k with
  | none => none
  | some (v, deadline) => if now < deadline then some v else none

@[simp] theorem get_empty (now : ℤ) (k : κ) : (empty : Expiring κ ν).get now k = none := rfl

theorem get_eq_some {s : Expiring κ ν} {now : ℤ} {k : κ} {v : ν} :
    s.get now k = some v ↔ ∃ deadline, s k = some (v, deadline) ∧ now < deadline := by
  cases hk : s k with
  | none => simp [get, hk]
  | some entry =>
    obtain ⟨w, deadline⟩ := entry
    by_cases h : now < deadline
    · simp only [get, hk, h, if_true, Option.some.injEq, Prod.mk.injEq]
      constructor
      · intro hv
        exact ⟨deadline, ⟨hv, rfl⟩, h⟩
      · intro hv
        obtain ⟨later, hv, -⟩ := hv
        exact hv.1
    · simp only [get, hk, h, if_false, Option.some.injEq, Prod.mk.injEq]
      constructor
      · intro hv
        cases hv
      · rintro ⟨later, ⟨-, rfl⟩, hnow⟩
        exact absurd hnow h

variable [DecidableEq κ]

/-- The key has a value until a deadline, whatever it had before. -/
def set (s : Expiring κ ν) (k : κ) (v : ν) (deadline : ℤ) : Expiring κ ν :=
  update s k (some (v, deadline))

def remove (s : Expiring κ ν) (k : κ) : Expiring κ ν := update s k none

theorem set_apply (s : Expiring κ ν) (k k' : κ) (v : ν) (deadline : ℤ) :
    s.set k v deadline k' = if k' = k then some (v, deadline) else s k' := by
  unfold set
  exact update_apply _ _ _ _

theorem remove_apply (s : Expiring κ ν) (k k' : κ) : s.remove k k' = if k' = k then none else s k' := by
  unfold remove
  exact update_apply _ _ _ _

theorem get_set (s : Expiring κ ν) (k k' : κ) (v : ν) (deadline now : ℤ) :
    (s.set k v deadline).get now k' = if k' = k then (if now < deadline then some v else none)
    else s.get now k' := by
  unfold get
  rw [set_apply]
  by_cases h : k' = k
  · rw [if_pos h, if_pos h]
  · rw [if_neg h, if_neg h]

theorem get_remove (s : Expiring κ ν) (k k' : κ) (now : ℤ) :
    (s.remove k).get now k' = if k' = k then none else s.get now k' := by
  unfold get
  rw [remove_apply]
  by_cases h : k' = k
  · rw [if_pos h, if_pos h]
  · rw [if_neg h, if_neg h]

end Expiring

end CountyFlow.Lib
