import Mathlib.Data.List.Perm.Subperm
import Mathlib.Order.Nat

/-!
# Following links until they end

A walk looks at one element after the other: each ends it with an answer or names the next one.  It
gives up on an element it has met before, and it has fuel.
-/

namespace CountyFlow.Lib

variable {α : Type*}

/-- What an element says: the walk is over, or it goes on. -/
inductive Turn (α : Type*) where
  | stop (answer : Bool)
  | go (next : α)

/-- The walk, with the elements it has met. -/
def chase [DecidableEq α] (turn : α → Turn α) : ℕ → α → List α → Bool
  | 0, _, _ => false
  | fuel + 1, a, seen =>
    if a ∈ seen then false
    else match turn a with
      | .stop answer => answer
      | .go b => chase turn fuel b (a :: seen)

/-- The links lead from an element to the answer `true`. -/
inductive Leads (turn : α → Turn α) : α → Prop
  | stop {a : α} (h : turn a = .stop true) : Leads turn a
  | go {a b : α} (h : turn a = .go b) (hb : Leads turn b) : Leads turn a

/-- They do so in a number of links. -/
def LeadsIn (turn : α → Turn α) : ℕ → α → Prop
  | 0, a => turn a = .stop true
  | n + 1, a => ∃ b, turn a = .go b ∧ LeadsIn turn n b

variable {turn : α → Turn α}

theorem leads_iff {a : α} : Leads turn a ↔ ∃ n, LeadsIn turn n a := by
  constructor
  · intro h
    induction h with
    | stop h => exact ⟨0, h⟩
    | go h _ ih =>
      obtain ⟨n, hn⟩ := ih
      exact ⟨n + 1, _, h, hn⟩
  · rintro ⟨n, hn⟩
    induction n generalizing a with
    | zero => exact .stop hn
    | succ n ih =>
      obtain ⟨b, hb, hn⟩ := hn
      exact .go hb (ih hn)

variable {n : ℕ}

theorem LeadsIn.unique {a : α} {m : ℕ} (hn : LeadsIn turn n a) (hm : LeadsIn turn m a) : n = m := by
  induction n generalizing a m with
  | zero =>
    cases m with
    | zero => rfl
    | succ m =>
      obtain ⟨b, hb, -⟩ := hm
      rw [LeadsIn] at hn
      rw [hn] at hb
      cases hb
  | succ n ih =>
    obtain ⟨b, hb, hn⟩ := hn
    cases m with
    | zero =>
      rw [LeadsIn, hb] at hm
      cases hm
    | succ m =>
      obtain ⟨b', hb', hm⟩ := hm
      rw [hb, Turn.go.injEq] at hb'
      subst hb'
      rw [ih hn hm]

theorem LeadsIn.way {a : α} (h : LeadsIn turn n a) :
    ∃ way : List α, way.Nodup ∧ way.length = n ∧
      ∀ x ∈ way, (∃ y, turn x = .go y) ∧ ∃ m, m ≤ n ∧ LeadsIn turn m x := by
  induction n generalizing a with
  | zero => exact ⟨[], List.nodup_nil, rfl, by simp⟩
  | succ n ih =>
    have hself := h
    obtain ⟨b, hb, hn⟩ := h
    obtain ⟨way, hnodup, hlength, hway⟩ := ih hn
    refine ⟨a :: way, List.nodup_cons.mpr ⟨fun hmem => ?_, hnodup⟩, by simp [hlength], ?_⟩
    · obtain ⟨-, m, hm, hlead⟩ := hway a hmem
      have heq := hlead.unique hself
      omega
    · intro x hx
      rcases List.mem_cons.mp hx with rfl | hx
      · exact ⟨⟨b, hb⟩, n + 1, le_rfl, hself⟩
      · obtain ⟨hlink, m, hm, hlead⟩ := hway x hx
        exact ⟨hlink, m, by omega, hlead⟩

theorem LeadsIn.le_length {a : α} (h : LeadsIn turn n a) {ids : List α}
    (hids : ∀ x y, turn x = .go y → x ∈ ids) : n ≤ ids.length := by
  obtain ⟨way, hnodup, hlength, hway⟩ := h.way
  rw [← hlength]
  refine (List.subperm_of_subset hnodup fun x hx => ?_).length_le
  obtain ⟨⟨y, hy⟩, -⟩ := hway x hx
  exact hids x y hy

variable [DecidableEq α]

variable {fuel : ℕ} {seen : List α}

theorem leads_of_chase {a : α} (h : chase turn fuel a seen = true) : Leads turn a := by
  induction fuel generalizing a seen with
  | zero => exact absurd h Bool.false_ne_true
  | succ fuel ih =>
    rw [chase] at h
    split at h
    · cases h
    · split at h
      · rename_i answer hturn
        rw [h] at hturn
        exact .stop hturn
      · rename_i b hturn
        exact .go hturn (ih h)

theorem LeadsIn.chase {a : α} (h : LeadsIn turn n a) (hfuel : n < fuel)
    (hseen : ∀ x ∈ seen, ∀ m, LeadsIn turn m x → n < m) : chase turn fuel a seen = true := by
  induction n generalizing fuel a seen with
  | zero =>
    obtain ⟨fuel, rfl⟩ := Nat.exists_eq_succ_of_ne_zero hfuel.ne'
    have hnew : a ∉ seen := fun hmem => absurd (hseen a hmem 0 h) (lt_irrefl 0)
    rw [LeadsIn] at h
    rw [Lib.chase, if_neg hnew, h]
  | succ n ih =>
    obtain ⟨fuel, rfl⟩ := Nat.exists_eq_succ_of_ne_zero (Nat.zero_lt_of_lt hfuel).ne'
    have hnew : a ∉ seen := fun hmem => absurd (hseen a hmem (n + 1) h) (lt_irrefl _)
    have hself := h
    obtain ⟨b, hb, hn⟩ := h
    rw [Lib.chase, if_neg hnew, hb]
    refine ih hn (by omega) fun x hx m hm => ?_
    rcases List.mem_cons.mp hx with rfl | hx
    · rw [hm.unique hself]
      exact Nat.lt_succ_self n
    · exact (Nat.lt_succ_self n).trans (hseen x hx m hm)

/-- **The walk finds out** where the links lead. -/
theorem chase_iff_leads {a : α} {ids : List α} (hids : ∀ x y, turn x = .go y → x ∈ ids)
    (hfuel : ids.length < fuel) : chase turn fuel a [] = true ↔ Leads turn a := by
  constructor
  · exact leads_of_chase
  · intro h
    obtain ⟨n, hn⟩ := leads_iff.mp h
    exact hn.chase ((hn.le_length hids).trans_lt hfuel) (by simp)

/-! ### Its end -/

/-- So many turns of the walk: its answer, if it has ended by then. -/
def walk (turn : α → Turn α) : ℕ → α → List α → Option Bool
  | 0, _, _ => none
  | turns + 1, a, seen =>
    if a ∈ seen then some false
    else match turn a with
      | .stop answer => some answer
      | .go b => walk turn turns b (a :: seen)

theorem chase_of_walk {turns : ℕ} {a : α} {answer : Bool}
    (h : walk turn turns a seen = some answer) : chase turn turns a seen = answer := by
  induction turns generalizing a seen with
  | zero => cases h
  | succ turns ih =>
    rw [walk] at h
    rw [chase]
    split
    · rename_i hseen
      rw [if_pos hseen] at h
      exact Option.some.inj h
    · rename_i hseen
      rw [if_neg hseen] at h
      cases hturn : turn a with
      | stop answer' =>
        rw [hturn] at h
        exact Option.some.inj h
      | go b =>
        rw [hturn] at h
        exact ih h

/-- **The walk ends**: each turn but the last one meets one of the elements with a link that it has not
met before. -/
theorem walk_isSome {turns : ℕ} {a : α} {seen ids : List α} (hids : ∀ x y, turn x = .go y → x ∈ ids)
    (hturns : (ids.filter (· ∉ seen)).length < turns) : (walk turn turns a seen).isSome = true := by
  induction turns generalizing a seen with
  | zero => omega
  | succ turns ih =>
    rw [walk]
    split
    · rfl
    · rename_i hnew
      cases hturn : turn a with
      | stop answer => rfl
      | go b =>
        apply ih
        have ha : a ∈ ids.filter (· ∉ seen) := List.mem_filter.mpr ⟨hids a b hturn, by simpa using hnew⟩
        have hfilter : ids.filter (· ∉ a :: seen) = (ids.filter (· ∉ seen)).filter (· ≠ a) := by
          rw [List.filter_filter]
          apply List.filter_congr
          intro x _
          simp
        have hless : ((ids.filter (· ∉ seen)).filter (· ≠ a)).length < (ids.filter (· ∉ seen)).length :=
          List.length_filter_lt_length_iff_exists.mpr ⟨a, ha, by simp⟩
        rw [hfilter]
        omega

/-- **The walk ends with the answer** where the links lead. -/
theorem walk_iff_leads {turns : ℕ} {a : α} {ids : List α} (hids : ∀ x y, turn x = .go y → x ∈ ids)
    (hturns : ids.length < turns) : ∃ answer, walk turn turns a [] = some answer ∧
    (answer = true ↔ Leads turn a) := by
  obtain ⟨answer, hanswer⟩ := Option.isSome_iff_exists.mp
    (@walk_isSome α turn _ turns a [] ids hids (by simpa using hturns))
  refine ⟨answer, hanswer, ?_⟩
  rw [← chase_of_walk hanswer]
  exact chase_iff_leads hids hturns

theorem walk_settles {a : α} {ids : List α} (hids : ∀ x y, turn x = .go y → x ∈ ids) :
    ∃ answer, (∀ turns, ids.length < turns → walk turn turns a [] = some answer) ∧
    (answer = true ↔ Leads turn a) := by
  obtain ⟨answer, -, hanswer⟩ := @walk_iff_leads α turn _ (ids.length + 1) a ids hids (Nat.lt_succ_self _)
  refine ⟨answer, fun turns hturns => ?_, hanswer⟩
  obtain ⟨answer', hwalk, hanswer'⟩ := @walk_iff_leads α turn _ turns a ids hids hturns
  rw [hwalk, Option.some.injEq, Bool.eq_iff_iff]
  exact hanswer'.trans hanswer.symm

/-! ### Records with links -/

section Links

variable {ι ρ : Type*} (lookup : ι → Option ρ) (parent : ρ → Option ι) (root : Bool) (found : ι → Bool)
  (passes : ρ → Bool)

/-- A walk from parent to parent: `root` is the answer where there is no parent, an id that is `found` ends
the walk, and it goes on only from records that pass. -/
def linkTurn : Option ι → Turn (Option ι)
  | none => .stop root
  | some id =>
    if found id then .stop true
    else match lookup id with
      | none => .stop false
      | some record => if passes record then .go (parent record) else .stop false

/-- The parents of a record lead to an end that counts. -/
inductive Linked : ρ → Prop
  | root {record : ρ} (hroot : root = true) (h : parent record = none) : Linked record
  | found {record : ρ} {id : ι} (h : parent record = some id) (hfound : found id = true) : Linked record
  | further {record next : ρ} {id : ι} (h : parent record = some id) (hnext : lookup id = some next)
      (hpasses : passes next = true) (hrest : Linked next) : Linked record

variable {lookup parent root found passes}

theorem linkTurn_go {a b : Option ι} (h : linkTurn lookup parent root found passes a = .go b) :
    ∃ id record, a = some id ∧ lookup id = some record ∧ passes record = true ∧ b = parent record := by
  unfold linkTurn at h
  split at h
  · cases h
  · rename_i id
    split at h
    · cases h
    · split at h
      · cases h
      · rename_i record hrecord
        split at h
        · rename_i hpasses
          exact ⟨id, record, rfl, hrecord, hpasses, (Turn.go.inj h).symm⟩
        · cases h

theorem linkTurn_stop {a : Option ι} (h : linkTurn lookup parent root found passes a = .stop true) :
    a = none ∧ root = true ∨ ∃ id, a = some id ∧ found id = true := by
  unfold linkTurn at h
  split at h
  · exact .inl ⟨rfl, Turn.stop.inj h⟩
  · rename_i id
    split at h
    · rename_i hfound
      exact .inr ⟨id, rfl, hfound⟩
    · split at h
      · cases h
      · split at h <;> cases h

/-- **The walk from a record** leads to a positive answer exactly when its parents do. -/
theorem leads_linkTurn {record : ρ} : Leads (linkTurn lookup parent root found passes) (parent record) ↔
    Linked lookup parent root found passes record := by
  constructor
  · intro h
    generalize hstart : parent record = start at h
    induction h generalizing record with
    | stop hturn =>
      rcases linkTurn_stop hturn with ⟨rfl, hroot⟩ | ⟨id, rfl, hfound⟩
      · exact .root hroot hstart
      · exact .found hstart hfound
    | go hturn _ ih =>
      obtain ⟨id, next, rfl, hnext, hpasses, rfl⟩ := linkTurn_go hturn
      exact .further hstart hnext hpasses (ih rfl)
  · intro h
    induction h with
    | root hroot h =>
      rw [h]
      exact .stop (congrArg Turn.stop hroot)
    | found h hfound =>
      rw [h]
      exact .stop (if_pos hfound)
    | @further record next id h hnext hpasses _ ih =>
      rw [h]
      by_cases hfound : found id = true
      · exact .stop (if_pos hfound)
      · refine .go ?_ ih
        rw [linkTurn, if_neg hfound, hnext]
        exact if_pos hpasses

end Links

end CountyFlow.Lib
