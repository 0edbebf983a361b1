import Mathlib.Data.List.Sort

/-!
# Pages below a key

A table is read page by page, from its greatest key downwards: each page gives the key of its last row, and
the next one begins below it.  Meanwhile rows with greater keys may come in.
-/

namespace CountyFlow.Lib.Keyset

variable {α κ : Type*} [LinearOrder κ] (key : α → κ)

/-- The rows, the one with the greatest key first. -/
def descending (table : List α) : List α := table.insertionSort fun a b => key b ≤ key a

/-- The rows below a key; all rows, where no key is given. -/
def below (before : Option κ) (table : List α) : List α :=
  table.filter fun row => before.all fun k => key row < k

/-- A page, with the key of its last row where more rows follow. -/
structure Page (α κ : Type*) where
  items : List α
  next : Option κ
  deriving DecidableEq, Repr

/-- One row more than the limit is read, to see whether more follow. -/
def page (limit : ℕ) (before : Option κ) (table : List α) : Page α κ :=
  let rows := (descending key (below key before table)).take (limit + 1)
  let visible := rows.take limit
  ⟨visible, if limit < rows.length then visible.getLast?.map key else none⟩

/-- The rows of the pages from the `k`-th question on, `none` when the fuel runs out before the last page. -/
def follow (ask : ℕ → Option κ → Page α κ) : ℕ → ℕ → Option κ → Option (List α)
  | 0, _, _ => none
  | fuel + 1, k, before =>
    match (ask k before).next with
    | none => some (ask k before).items
    | some last => (follow ask fuel (k + 1) (some last)).map ((ask k before).items ++ ·)

/-- Rows with greater keys have come in, and no key is there twice. -/
def Grows (table table' : List α) : Prop :=
  (table'.map key).Nodup ∧
    ∃ fresh, table'.Perm (table ++ fresh) ∧ ∀ row ∈ fresh, ∀ old ∈ table, key old < key row

variable {key} {table table' table'' : List α}

/-! ### Rows in order -/

variable {row : α}

theorem mem_descending : row ∈ descending key table ↔ row ∈ table := List.mem_insertionSort _

theorem descending_strict (h : (table.map key).Nodup) :
    (descending key table).Pairwise fun a b => key b < key a := by
  have : Std.Total fun a b => key b ≤ key a := ⟨fun a b => le_total _ _⟩
  have : IsTrans α fun a b => key b ≤ key a := ⟨fun a b c hab hbc => hbc.trans hab⟩
  have hsorted : (descending key table).Pairwise fun a b => key b ≤ key a :=
    List.pairwise_insertionSort _ table
  have hdistinct : (descending key table).Pairwise fun a b => key a ≠ key b := by
    refine List.pairwise_map.mp ?_
    exact ((List.perm_insertionSort _ table).map key).nodup_iff.mpr h
  exact (hsorted.and hdistinct).imp fun hab => lt_of_le_of_ne hab.1 hab.2.symm

theorem eq_of_strict {rows rows' : List α} (hperm : rows.Perm rows')
    (h : rows.Pairwise fun a b => key b < key a)
    (h' : rows'.Pairwise fun a b => key b < key a) : rows = rows' :=
  hperm.eq_of_pairwise (fun _ _ _ _ hab hba => absurd hab hba.asymm) h h'

theorem descending_congr (hperm : table.Perm table') (h : (table.map key).Nodup) :
    descending key table = descending key table' := by
  refine eq_of_strict ?_ (descending_strict h) (descending_strict ((hperm.map key).nodup_iff.mp h))
  exact (List.perm_insertionSort _ _).trans (hperm.trans (List.perm_insertionSort _ _).symm)

theorem nodup_below (h : (table.map key).Nodup) (before : Option κ) :
    ((below key before table).map key).Nodup :=
  h.sublist (List.filter_sublist.map key)

theorem below_none : below key none table = table := by simp [below]

theorem descending_below (h : (table.map key).Nodup) (before : Option κ) :
    descending key (below key before table) = below key before (descending key table) := by
  refine eq_of_strict ?_ (descending_strict (nodup_below h before)) ((descending_strict h).filter _)
  exact (List.perm_insertionSort _ _).trans ((List.perm_insertionSort _ _).symm.filter _)

theorem below_middle {front back : List α} (h : (front ++ row :: back).Pairwise fun a b => key b < key a) :
    below key (some (key row)) (front ++ row :: back) = back := by
  obtain ⟨-, hback, hfront⟩ := List.pairwise_append.mp h
  unfold below
  have hnone : front.filter (fun r => (some (key row)).all fun k => key r < k) = [] := by
    apply List.filter_eq_nil_iff.mpr
    intro r hr
    have hlt := hfront r hr row (List.mem_cons_self ..)
    simpa using hlt.le
  have hall : back.filter (fun r => (some (key row)).all fun k => key r < k) = back := by
    apply List.filter_eq_self.mpr
    intro r hr
    simpa using List.rel_of_pairwise_cons hback hr
  rw [List.filter_append, hnone, List.nil_append, List.filter_cons, hall]
  simp

/-! ### A table that grows -/

theorem Grows.refl (h : (table.map key).Nodup) : Grows key table table :=
  ⟨h, [], by simp, nofun⟩

theorem Grows.trans (h : Grows key table table') (h' : Grows key table' table'') :
    Grows key table table'' := by
  obtain ⟨-, fresh, hperm, hgreater⟩ := h
  obtain ⟨hnodup, fresh', hperm', hgreater'⟩ := h'
  refine ⟨hnodup, fresh ++ fresh', ?_, fun row hrow old hold => ?_⟩
  · rw [← List.append_assoc]
    exact hperm'.trans (hperm.append_right fresh')
  · rcases List.mem_append.mp hrow with hin | hin
    · exact hgreater row hin old hold
    · exact hgreater' row hin old (hperm.mem_iff.mpr (List.mem_append_left _ hold))

theorem Grows.filter (h : Grows key table table') (keep : α → Bool) :
    Grows key (table.filter keep) (table'.filter keep) := by
  obtain ⟨hnodup, fresh, hperm, hgreater⟩ := h
  refine ⟨hnodup.sublist (List.filter_sublist.map key), fresh.filter keep, ?_, fun row hrow old hold => ?_⟩
  · rw [← List.filter_append]
    exact hperm.filter keep
  · exact hgreater row (List.mem_filter.mp hrow).1 old (List.mem_filter.mp hold).1

theorem Grows.below (h : Grows key table table') (hrow : row ∈ table) :
    (below key (some (key row)) table').Perm (below key (some (key row)) table) := by
  obtain ⟨-, fresh, hperm, hgreater⟩ := h
  have hnone : fresh.filter (fun r => (some (key row)).all fun k => key r < k) = [] := by
    apply List.filter_eq_nil_iff.mpr
    intro r hr
    simpa using (hgreater r hr row hrow).le
  have hbelow := hperm.filter fun r => (some (key row)).all fun k => key r < k
  rwa [List.filter_append, hnone, List.append_nil] at hbelow

/-! ### All pages -/

theorem page_cases {limit : ℕ} (hlimit : 0 < limit) {before : Option κ} {rest : List α}
    (h : descending key (below key before table) = rest) :
    page key limit before table = ⟨rest, none⟩ ∨
      ∃ front row back, rest = front ++ row :: back ∧
        page key limit before table = ⟨front ++ [row], some (key row)⟩ := by
  by_cases hmore : limit < rest.length
  · refine .inr ?_
    have hne : rest.take limit ≠ [] := by
      intro hnil
      have hlength := congrArg List.length hnil
      rw [List.length_take, List.length_nil] at hlength
      omega
    obtain ⟨front, row, hfront⟩ := (List.eq_nil_or_concat' _).resolve_left hne
    refine ⟨front, row, rest.drop limit, ?_, ?_⟩
    · rw [List.append_cons, ← hfront, List.take_append_drop]
    · have htake : (rest.take (limit + 1)).take limit = front ++ [row] := by
        rw [List.take_take, Nat.min_eq_left (Nat.le_succ limit), hfront]
      simp [page, h, htake, hmore]
  · refine .inl ?_
    have hall : rest.take (limit + 1) = rest := List.take_of_length_le (by omega)
    have hvisible : rest.take limit = rest := List.take_of_length_le (by omega)
    simp [page, h, hall, hvisible, hmore]

/-- **The pages list what was there at the start**, though rows with greater keys come in between. -/
theorem follow_lists {tables : ℕ → List α} (hfirst : ((tables 0).map key).Nodup)
    (hgrows : ∀ k, Grows key (tables k) (tables (k + 1))) {limit : ℕ} (hlimit : 0 < limit)
    {ask : ℕ → Option κ → Page α κ} (hask : ∀ k before, ask k before = page key limit before (tables k)) :
    ∃ fuel, follow ask fuel 0 none = some (descending key (tables 0)) := by
  have hstrict := descending_strict hfirst
  have hfrom : ∀ k, Grows key (tables 0) (tables k) := by
    intro k
    induction k with
    | zero => exact Grows.refl hfirst
    | succ k ih => exact ih.trans (hgrows k)
  -- by induction on the rows that are left
  have hrest : ∀ n rest done, rest.length = n → done ++ rest = descending key (tables 0) → ∀ k before,
      descending key (below key before (tables k)) = rest → ∃ fuel, follow ask fuel k before = some rest := by
    intro n
    induction n using Nat.strong_induction_on with
    | _ n ih =>
      intro rest done hlength hparts k before hrows
      rcases page_cases hlimit hrows with hlast | ⟨front, row, back, rfl, hpage⟩
      · exact ⟨1, by simp [follow, hask, hlast]⟩
      · rw [← List.append_assoc] at hparts
        have hrow : row ∈ tables 0 := by
          refine mem_descending.mp (?_ : row ∈ descending key (tables 0))
          rw [← hparts]
          simp
        have hnext : descending key (below key (some (key row)) (tables (k + 1))) = back := by
          rw [← hparts] at hstrict
          have hsame := descending_congr ((hfrom (k + 1)).below hrow) (nodup_below (hfrom (k + 1)).1 _)
          rw [hsame, descending_below hfirst, ← hparts, below_middle hstrict]
        have hless : back.length < n := by
          rw [← hlength, List.length_append, List.length_cons]
          omega
        obtain ⟨fuel, hfuel⟩ := ih back.length hless back ((done ++ front) ++ [row]) rfl
          (by rw [← hparts]; simp) (k + 1) (some (key row)) hnext
        exact ⟨fuel + 1, by simp [follow, hask, hpage, hfuel]⟩
  exact hrest _ _ [] rfl rfl 0 none (congrArg _ below_none)

end CountyFlow.Lib.Keyset
