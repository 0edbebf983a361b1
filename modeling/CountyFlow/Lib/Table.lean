import Mathlib.Data.List.Nodup
import Mathlib.Data.List.Basic

/-!
# Tables with a unique column

`Table ρ key` is a list of rows whose `key` column is unique, as a database keeps it: the
uniqueness is a field, so a table with two rows of one key cannot be built.  `find` is the lookup
by key, `add` appends a row and answers `none` where the database reports an integrity error, and
`replace` writes a row over the row of its key.

The lemmas say what the three operations do to each other and to a count of rows.
-/

namespace CountyFlow.Lib

variable {ρ κ : Type*} {key : ρ → κ}

/-- The rows of a table whose `key` column carries a unique constraint. -/
structure Table (ρ : Type*) {κ : Type*} (key : ρ → κ) where
  rows : List ρ
  unique : (rows.map key).Nodup

variable {r' : ρ} {t' : Table ρ key}

namespace Table

def empty : Table ρ key := ⟨[], List.nodup_nil⟩

variable [DecidableEq κ]

def find (t : Table ρ key) (k : κ) : Option ρ := t.rows.find? fun r => key r = k

/-- Append a row; `none` when its key is taken. -/
def add (t : Table ρ key) (r : ρ) : Option (Table ρ key) :=
  if h : key r ∈ t.rows.map key then none
  else some ⟨t.rows ++ [r], by
    rw [List.map_append, List.map_singleton]
    exact t.unique.append (List.nodup_singleton _) (by simpa using h)⟩

/-- Write a row over the row of its key; nothing happens when there is none. -/
def replace (t : Table ρ key) (r' : ρ) : Table ρ key :=
  ⟨t.rows.map fun r => if key r = key r' then r' else r, by
    have hkeys : (t.rows.map fun r => if key r = key r' then r' else r).map key
        = t.rows.map key := by
      rw [List.map_map]
      refine List.map_congr_left fun r _ => ?_
      by_cases h : key r = key r'
      · simp [h]
      · simp [h]
    rw [hkeys]
    exact t.unique⟩

/-! ### Lookups -/

variable {t : Table ρ key}

variable {r : ρ}

variable {k : κ}

theorem find_eq_some_iff : t.find k = some r ↔ r ∈ t.rows ∧ key r = k := by
  constructor
  · intro h
    exact ⟨List.mem_of_find?_eq_some h, by simpa using List.find?_some h⟩
  · rintro ⟨hmem, rfl⟩
    cases hf : t.find (key r) with
    | none =>
      have := List.find?_eq_none.mp hf r hmem
      simp at this
    | some r' =>
      have hk : key r' = key r := by simpa using List.find?_some hf
      have hr : r' ∈ t.rows := List.mem_of_find?_eq_some hf
      rw [List.inj_on_of_nodup_map t.unique hr hmem hk]

theorem find_key (h : t.find k = some r) : key r = k :=
  (find_eq_some_iff.mp h).2

theorem find_mem (h : t.find k = some r) : r ∈ t.rows :=
  (find_eq_some_iff.mp h).1

theorem find_of_mem (h : r ∈ t.rows) : t.find (key r) = some r :=
  find_eq_some_iff.mpr ⟨h, rfl⟩

@[simp] theorem find_empty (k : κ) : (empty : Table ρ key).find k = none := rfl

theorem find_replace (t : Table ρ key) (r' : ρ) (k : κ) :
    (t.replace r').find k = if k = key r' then (t.find k).map fun _ => r' else t.find k := by
  simp only [find, replace, List.find?_map]
  have hpred : ((fun r => decide (key r = k)) ∘ fun r => if key r = key r' then r' else r)
      = fun r => decide (key r = k) := by
    funext r
    by_cases h : key r = key r'
    · simp [h]
    · simp [h]
  rw [hpred]
  cases hr : t.rows.find? fun r => decide (key r = k) with
  | none => by_cases hk : k = key r' <;> simp [hk]
  | some r =>
    have hkey : key r = k := by simpa using List.find?_some hr
    by_cases hk : k = key r'
    · simp [hk, hkey]
    · simp [hk, hkey]

theorem find_replace_self (h : t.find (key r') = some r) : (t.replace r').find (key r') = some r' := by
  rw [find_replace, if_pos rfl, h]
  rfl

theorem find_replace_ne (t : Table ρ key) (r' : ρ) (h : k ≠ key r') : (t.replace r').find k = t.find k := by
  rw [find_replace, if_neg h]

theorem find_replace_of (h : t.find (key r') = some r) (k : κ) :
    (t.replace r').find k = if k = key r' then some r' else t.find k := by
  rw [find_replace]
  by_cases hk : k = key r'
  · rw [if_pos hk, if_pos hk, hk, h]
    rfl
  · rw [if_neg hk, if_neg hk]

theorem rows_add (h : t.add r = some t') : t'.rows = t.rows ++ [r] := by
  unfold add at h
  split at h
  · exact absurd h (by simp)
  · rw [← Option.some.inj h]

theorem find_none_of_add (h : t.add r = some t') : t.find (key r) = none := by
  unfold add at h
  split at h
  · exact absurd h (by simp)
  · rename_i hfree
    refine List.find?_eq_none.mpr fun r' hr' hk => hfree ?_
    exact List.mem_map.mpr ⟨r', hr', by simpa using hk⟩

theorem add_of_find_none (h : t.find (key r) = none) : ∃ t', t.add r = some t' := by
  have hfree : key r ∉ t.rows.map key := by
    intro hmem
    obtain ⟨r', hr', hk⟩ := List.mem_map.mp hmem
    have := List.find?_eq_none.mp h r' hr'
    simp [hk] at this
  exact ⟨_, dif_neg hfree⟩

theorem find_add (h : t.add r = some t') (k : κ) : t'.find k = if k = key r then some r else t.find k := by
  have hnone := find_none_of_add h
  simp only [find, rows_add h, List.find?_append] at hnone ⊢
  by_cases hk : k = key r
  · subst hk
    rw [hnone]
    simp
  · have hk' : key r ≠ k := Ne.symm hk
    simp [hk, hk']

/-! ### Rows written whatever there is, and rows changed in place -/

/-- Write a row at its key, over the row there or as a new one. -/
def upsert (t : Table ρ key) (r : ρ) : Table ρ key := (t.add r).getD (t.replace r)

/-- Change rows without touching their keys. -/
def modify (t : Table ρ key) (f : ρ → ρ) (hf : ∀ r, key (f r) = key r) : Table ρ key :=
  ⟨t.rows.map f, by
    have hkeys : (t.rows.map f).map key = t.rows.map key := by
      rw [List.map_map]
      exact List.map_congr_left fun r _ => hf r
    rw [hkeys]
    exact t.unique⟩

theorem find_upsert (t : Table ρ key) (r : ρ) (k : κ) :
    (t.upsert r).find k = if k = key r then some r else t.find k := by
  unfold upsert
  cases hadd : t.add r with
  | some t' => exact find_add hadd k
  | none =>
    rw [Option.getD_none, find_replace]
    by_cases hk : k = key r
    · rw [if_pos hk, if_pos hk]
      cases hfind : t.find k with
      | some r' => rfl
      | none =>
        rw [hk] at hfind
        obtain ⟨t', ht'⟩ := add_of_find_none hfind
        rw [ht'] at hadd
        cases hadd
    · rw [if_neg hk, if_neg hk]

theorem mem_upsert {x : ρ} : x ∈ (t.upsert r).rows ↔ x = r ∨ (x ∈ t.rows ∧ key x ≠ key r) := by
  have hself : x ∈ (t.upsert r).rows ↔ (t.upsert r).find (key x) = some x :=
    ⟨find_of_mem, find_mem⟩
  have hbefore : x ∈ t.rows ↔ t.find (key x) = some x := ⟨find_of_mem, find_mem⟩
  rw [hself, find_upsert, hbefore]
  by_cases hk : key x = key r
  · rw [if_pos hk]
    constructor
    · intro h
      exact .inl (Option.some.inj h).symm
    · rintro (rfl | ⟨-, hne⟩)
      · rfl
      · exact absurd hk hne
  · rw [if_neg hk]
    constructor
    · intro h
      exact .inr ⟨h, hk⟩
    · rintro (rfl | ⟨h, -⟩)
      · exact absurd rfl hk
      · exact h

/-! ### Counting rows -/

/-- How many rows meet `p`. -/
def count (t : Table ρ key) (p : ρ → Bool) : ℕ := t.rows.countP p

theorem count_add (h : t.add r = some t') (p : ρ → Bool) : t'.count p = t.count p + if p r then 1 else 0 := by
  simp only [count, rows_add h, List.countP_append, List.countP_singleton]

theorem count_replace_of_eq (p : ρ → Bool) (hr : t.find (key r') = some r) (hp : p r' = p r) :
    (t.replace r').count p = t.count p := by
  simp only [count, replace, List.countP_map]
  refine List.countP_congr fun x hx => ?_
  by_cases h : key x = key r'
  · have hxr : x = r := by
      have hfind := find_of_mem hx
      rw [h, hr] at hfind
      exact (Option.some.inj hfind).symm
    rw [Function.comp_apply, if_pos h, hp, hxr]
  · simp [h]

theorem count_replace_of_gain (p : ρ → Bool) (hr : t.find (key r') = some r) (hold : p r = false)
    (hnew : p r' = true) : (t.replace r').count p = t.count p + 1 := by
  obtain ⟨hmem, hkey⟩ := find_eq_some_iff.mp hr
  obtain ⟨pre, post, hrows⟩ := List.append_of_mem hmem
  have hother : ∀ x ∈ pre ++ post, key x ≠ key r' := by
    intro x hx hk
    have hnodup := t.unique
    rw [hrows, List.map_append, List.map_cons, List.nodup_middle, List.nodup_cons] at hnodup
    refine hnodup.1 ?_
    rw [hkey, ← hk, ← List.map_append]
    exact List.mem_map_of_mem hx
  have hsame : ∀ l : List ρ, (∀ x ∈ l, key x ≠ key r') →
      (l.map fun x => if key x = key r' then r' else x) = l := by
    intro l hl
    conv_rhs => rw [← List.map_id l]
    exact List.map_congr_left fun x hx => by simp [hl x hx]
  simp only [count, replace, hrows, List.map_append, List.map_cons, hkey, if_true]
  rw [hsame pre fun x h => hother x (List.mem_append_left _ h),
    hsame post fun x h => hother x (List.mem_append_right _ h)]
  simp only [List.countP_append, List.countP_cons, hold, hnew]
  simp
  omega

end Table

end CountyFlow.Lib
