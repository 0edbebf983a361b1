import Mathlib.Order.Nat
import CountyFlow.Lib.Expiring

/-!
# Transactions that give way

A store of keys that expire, in which a client can watch a key: it notes the key, reads it at leisure, and its
writes happen only if the key has not changed in between.  That it expired is a change.
-/

namespace CountyFlow.Lib

open Function

/-- The store, the number of changes of each key, and the time. -/
structure Watched (κ ν : Type*) where
  entries : Expiring κ ν
  changes : κ → ℕ
  now : ℤ

/-- What a client notes of a key: how often it had changed, and whether it had a value. -/
structure Mark where
  changes : ℕ
  alive : Bool
  deriving DecidableEq, Repr

variable {d : ℕ} {m : Mark}

namespace Watched

variable {κ ν : Type*}

def empty (now : ℤ) : Watched κ ν := ⟨Expiring.empty, fun _ => 0, now⟩

def get (s : Watched κ ν) (k : κ) : Option ν := s.entries.get s.now k

def mark (s : Watched κ ν) (k : κ) : Mark := ⟨s.changes k, (s.get k).isSome⟩

/-- The key has not changed since. -/
def Unchanged (s : Watched κ ν) (k : κ) (m : Mark) : Prop :=
  s.changes k = m.changes ∧ (m.alive = true → (s.get k).isSome = true)

instance (s : Watched κ ν) (k : κ) (m : Mark) : Decidable (s.Unchanged k m) := by
  unfold Unchanged
  infer_instance

def wait (s : Watched κ ν) (d : ℕ) : Watched κ ν := { s with now := s.now + d }

section Writes

variable [DecidableEq κ]

def write (s : Watched κ ν) (k : κ) (v : ν) (deadline : ℤ) : Watched κ ν :=
  { s with
    entries := s.entries.set k v deadline
    changes := update s.changes k (s.changes k + 1) }

def erase (s : Watched κ ν) (k : κ) : Watched κ ν :=
  { s with
    entries := s.entries.remove k
    changes := update s.changes k (s.changes k + 1) }

end Writes

variable {s : Watched κ ν} {k : κ} {v : ν}

theorem get_eq_some :
    s.get k = some v ↔ ∃ deadline, s.entries k = some (v, deadline) ∧ s.now < deadline := Expiring.get_eq_some

theorem get_of_wait (h : (s.wait d).get k = some v) : s.get k = some v := by
  obtain ⟨deadline, hentry, hnow⟩ := get_eq_some.mp h
  have hlater : s.now + d < deadline := hnow
  exact get_eq_some.mpr ⟨deadline, hentry, by omega⟩

theorem get_wait (h : s.get k = some v) : (s.wait d).get k = some v ∨ (s.wait d).get k = none := by
  cases hlater : (s.wait d).get k with
  | none => exact .inr rfl
  | some w =>
    have hw := get_of_wait hlater
    rw [h] at hw
    exact .inl hw.symm

section Writes

variable [DecidableEq κ]

theorem get_write (s : Watched κ ν) (k k' : κ) (v : ν) (deadline : ℤ) : (s.write k v deadline).get k' =
    if k' = k then (if s.now < deadline then some v else none) else s.get k' :=
  s.entries.get_set k k' v deadline s.now

theorem get_erase (s : Watched κ ν) (k k' : κ) : (s.erase k).get k' = if k' = k then none else s.get k' :=
  s.entries.get_remove k k' s.now

end Writes

/-! ### Knowledge of a key -/

/-- What is true of a key that has been marked: an expired key has no value until it changes. -/
def Noted (s : Watched κ ν) (k : κ) (m : Mark) : Prop :=
  m.changes ≤ s.changes k ∧ (s.changes k = m.changes → m.alive = false → s.get k = none)

/-- What is true of a key that had a value when it was read. -/
def Seen (s : Watched κ ν) (k : κ) (m : Mark) (v : ν) : Prop :=
  m.changes ≤ s.changes k ∧
    (s.changes k = m.changes → m.alive = true ∧ ∃ deadline, s.entries k = some (v, deadline))

theorem noted_mark (s : Watched κ ν) (k : κ) : s.Noted k (s.mark k) := by
  refine ⟨le_rfl, fun _ hdead => ?_⟩
  exact Option.not_isSome_iff_eq_none.mp
    (by rw [show (s.get k).isSome = false from hdead]; exact Bool.false_ne_true)

theorem Noted.seen (h : s.Noted k m) (hget : s.get k = some v) : s.Seen k m v := by
  refine ⟨h.1, fun hsame => ?_⟩
  obtain ⟨deadline, hentry, -⟩ := get_eq_some.mp hget
  refine ⟨?_, deadline, hentry⟩
  cases halive : m.alive with
  | true => rfl
  | false =>
    rw [h.2 hsame halive] at hget
    cases hget

/-- **If the key has not changed, its value is the one that was read.** -/
theorem Seen.get (h : s.Seen k m v) (hsame : s.Unchanged k m) : s.get k = some v := by
  obtain ⟨halive, deadline, hentry⟩ := h.2 hsame.1
  obtain ⟨w, hw⟩ := Option.isSome_iff_exists.mp (hsame.2 halive)
  obtain ⟨deadline', hentry', hnow⟩ := get_eq_some.mp hw
  rw [hentry] at hentry'
  obtain ⟨rfl, rfl⟩ := Prod.mk.inj (Option.some.inj hentry')
  exact hw

/-- The key of `s'` is as in `s`, or it has changed, or it has expired. -/
structure Later (s s' : Watched κ ν) (k : κ) : Prop where
  changes : s.changes k ≤ s'.changes k
  entries : s'.changes k = s.changes k → s'.entries k = s.entries k
  now : s.now ≤ s'.now

theorem Later.refl (s : Watched κ ν) (k : κ) : Later s s k := ⟨le_rfl, fun _ => rfl, Int.le_refl _⟩

theorem later_wait (s : Watched κ ν) (d : ℕ) (k : κ) : Later s (s.wait d) k where
  changes := le_rfl
  entries _ := rfl
  now := by
    show s.now ≤ s.now + d
    omega

section Writes

variable [DecidableEq κ]

theorem later_write (s : Watched κ ν) (k k' : κ) (v : ν) (deadline : ℤ) :
    Later s (s.write k v deadline) k' := by
  by_cases h : k' = k
  · subst h
    have hchanges : (s.write k' v deadline).changes k' = s.changes k' + 1 := update_self ..
    exact ⟨by omega, fun hsame => by omega, Int.le_refl _⟩
  · have hchanges : (s.write k v deadline).changes k' = s.changes k' := update_of_ne h ..
    exact ⟨hchanges.ge, fun _ => update_of_ne h .., Int.le_refl _⟩

theorem later_erase (s : Watched κ ν) (k k' : κ) : Later s (s.erase k) k' := by
  by_cases h : k' = k
  · subst h
    have hchanges : (s.erase k').changes k' = s.changes k' + 1 := update_self ..
    exact ⟨by omega, fun hsame => by omega, Int.le_refl _⟩
  · have hchanges : (s.erase k).changes k' = s.changes k' := update_of_ne h ..
    exact ⟨hchanges.ge, fun _ => update_of_ne h .., Int.le_refl _⟩

end Writes

theorem Noted.later {s' : Watched κ ν} (h : s.Noted k m) (hlater : Later s s' k) : s'.Noted k m := by
  obtain ⟨hle, hdead⟩ := h
  have hchanges := hlater.changes
  refine ⟨hle.trans hchanges, fun hsame halive => ?_⟩
  have hsame₀ : s.changes k = m.changes := by omega
  have hentries := hlater.entries (hsame.trans hsame₀.symm)
  cases hget : s'.get k with
  | none => rfl
  | some v =>
    obtain ⟨deadline, hentry, hnow⟩ := get_eq_some.mp hget
    rw [hentries] at hentry
    have hbefore : s.get k = some v := get_eq_some.mpr ⟨deadline, hentry, by
      have hnow' := hlater.now
      omega⟩
    rw [hdead hsame₀ halive] at hbefore
    cases hbefore

theorem Seen.later {s' : Watched κ ν} (h : s.Seen k m v) (hlater : Later s s' k) : s'.Seen k m v := by
  obtain ⟨hle, hseen⟩ := h
  have hchanges := hlater.changes
  refine ⟨hle.trans hchanges, fun hsame => ?_⟩
  have hsame₀ : s.changes k = m.changes := by omega
  rw [hlater.entries (hsame.trans hsame₀.symm)]
  exact hseen hsame₀

end Watched

end CountyFlow.Lib
