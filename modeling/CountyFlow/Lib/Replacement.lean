import Mathlib.Data.List.Basic
import Mathlib.Data.List.Infix

/-!
# Replacing what a rule finds

A rule looks at a place of a text, and knows whether a character of a word comes right before it.  It finds
nothing there, or says what it puts in the place of how many characters.  `replace` applies it from left to
right, to what is left of the text behind each place.
-/

namespace CountyFlow.Lib

variable {α : Type}

/-- What a rule finds at a place: the text it puts there, and the number of characters it takes. -/
abbrev Rule (α : Type) := Bool → List α → Option (List α × ℕ)

/-- Whether a character of a word comes right before what stands behind a text. -/
def wordBefore (isWord : α → Bool) (before : Bool) (cs : List α) : Bool :=
  cs.foldl (fun _ c => isWord c) before

variable {cs : List α} {c : α}

theorem wordBefore_of_getLast? {isWord : α → Bool} (h : c ∈ cs.getLast?) (before : Bool) :
    wordBefore isWord before cs = isWord c := by
  obtain ⟨front, rfl⟩ := List.getLast?_eq_some_iff.mp h
  exact List.foldl_concat ..

namespace Rule

variable (isWord : α → Bool) (rule : Rule α)

/-- The text with everything replaced that is found; `skip` is how much of it is taken already. -/
def replace : Bool → ℕ → List α → List α
  | _, _, [] => []
  | _, skip + 1, c :: cs => replace (isWord c) skip cs
  | before, 0, c :: cs =>
    match rule before (c :: cs) with
    | some (mark, taken) => mark ++ replace (isWord c) (taken - 1) cs
    | none => c :: replace (isWord c) 0 cs

/-- What is shown of the front of a text. -/
def shown (rest : List α) : Bool → ℕ → List α → List α
  | _, _, [] => []
  | _, skip + 1, c :: cs => shown rest (isWord c) skip cs
  | before, 0, c :: cs =>
    match rule before (c :: cs ++ rest) with
    | some (mark, taken) => mark ++ shown rest (isWord c) (taken - 1) cs
    | none => c :: shown rest (isWord c) 0 cs

/-- How much of the rest is taken by what begins in the front of a text. -/
def reach (rest : List α) : Bool → ℕ → List α → ℕ
  | _, skip, [] => skip
  | _, skip + 1, c :: cs => reach rest (isWord c) skip cs
  | before, 0, c :: cs =>
    match rule before (c :: cs ++ rest) with
    | some (_, taken) => reach rest (isWord c) (taken - 1) cs
    | none => reach rest (isWord c) 0 cs

/-- Whether something is found that begins in the middle of a text, or right behind it. -/
def begins (rest : List α) : Bool → List α → Bool
  | before, [] => (rule before rest).isSome
  | before, c :: cs => (rule before (c :: cs ++ rest)).isSome || begins rest (isWord c) cs

variable {isWord rule} {before : Bool} {skip : ℕ} {front front' middle middle' rest rest' : List α}

/-! ### Two pieces -/

theorem replace_append : rule.replace isWord before skip (front ++ rest) =
    rule.shown isWord rest before skip front ++
      rule.replace isWord (wordBefore isWord before front) (rule.reach isWord rest before skip front)
      rest := by
  induction front generalizing before skip with
  | nil => rfl
  | cons c cs ih =>
    cases skip with
    | succ skip => exact ih
    | zero =>
      simp only [List.cons_append, replace, shown, reach]
      cases rule before (c :: (cs ++ rest)) with
      | none => exact congrArg (c :: ·) ih
      | some found =>
        show found.1 ++ _ = (found.1 ++ _) ++ _
        rw [ih, List.append_assoc]
        rfl

theorem shown_append : rule.shown isWord rest before skip (front ++ front') =
    rule.shown isWord (front' ++ rest) before skip front ++
    rule.shown isWord rest (wordBefore isWord before front)
      (rule.reach isWord (front' ++ rest) before skip front) front' := by
  induction front generalizing before skip with
  | nil => rfl
  | cons c cs ih =>
    cases skip with
    | succ skip => exact ih
    | zero =>
      simp only [List.cons_append, List.append_assoc, shown, reach]
      cases rule before (c :: (cs ++ (front' ++ rest))) with
      | none => exact congrArg (c :: ·) ih
      | some found =>
        show found.1 ++ _ = (found.1 ++ _) ++ _
        rw [ih, List.append_assoc]
        rfl

theorem reach_append : rule.reach isWord rest before skip (front ++ front') =
    rule.reach isWord rest (wordBefore isWord before front)
      (rule.reach isWord (front' ++ rest) before skip front) front' := by
  induction front generalizing before skip with
  | nil => rfl
  | cons c cs ih =>
    cases skip with
    | succ skip => exact ih
    | zero =>
      simp only [List.cons_append, List.append_assoc, reach]
      cases rule before (c :: (cs ++ (front' ++ rest))) with
      | none => exact ih
      | some found => exact ih

theorem replace_skip (h : front.length ≤ skip) : rule.replace isWord before skip (front ++ rest) =
    rule.replace isWord (wordBefore isWord before front) (skip - front.length) rest := by
  induction front generalizing before skip with
  | nil => rfl
  | cons c cs ih =>
    obtain ⟨n, rfl⟩ : ∃ n, skip = n + 1 :=
      Nat.exists_eq_add_of_lt (Nat.lt_of_lt_of_le (Nat.succ_pos _) h) |>.imp
      fun n hn => by omega
    show rule.replace isWord (isWord c) n (cs ++ rest) = _
    rw [ih (Nat.le_of_succ_le_succ h), List.length_cons, Nat.add_sub_add_right]
    rfl

theorem reach_of_lt (h : front.length < skip) : rule.reach isWord rest before skip front =
    skip - front.length := by
  induction front generalizing before skip with
  | nil => rfl
  | cons c cs ih =>
    cases skip with
    | zero => cases h
    | succ n =>
      show rule.reach isWord rest (isWord c) n cs = _
      rw [ih (Nat.lt_of_succ_lt_succ h), List.length_cons, Nat.add_sub_add_right]

theorem replace_taken {mark : List α} {taken : ℕ} (hne : cs ≠ []) (hpos : 0 < taken)
    (h : rule before cs = some (mark, taken)) :
    rule.replace isWord before 0 cs = mark ++ rule.replace isWord before taken cs := by
  obtain ⟨c, cs, rfl⟩ := List.exists_cons_of_ne_nil hne
  obtain ⟨n, rfl⟩ : ∃ n, taken = n + 1 := Nat.exists_eq_add_one.mpr hpos
  simp only [replace, h, Nat.add_sub_cancel]

theorem replace_cons (h : rule before (c :: cs) = none) :
    rule.replace isWord before 0 (c :: cs) = c :: rule.replace isWord (isWord c) 0 cs := by
  simp only [replace, h]

theorem replace_before {before' : Bool} (h : rule before cs = rule before' cs) :
    rule.replace isWord before 0 cs = rule.replace isWord before' 0 cs := by
  cases cs with
  | nil => rfl
  | cons c cs => simp only [replace, h]

theorem replace_of_not_begins (h : rule.begins isWord [] before cs = false) :
    rule.replace isWord before 0 cs = cs := by
  induction cs generalizing before with
  | nil => rfl
  | cons c cs ih =>
    rw [begins, List.append_nil, Bool.or_eq_false_iff, Option.isSome_eq_false_iff,
      Option.isNone_iff_eq_none] at h
    rw [replace_cons h.1, ih h.2]

/-! ### What is found in the front -/

/-- A rule that finds the same in front of two rests shows the same of the front, and reaches as far. -/
theorem shown_same (h : ∀ q, q <:+ front → q ≠ [] → ∀ before,
    rule before (q ++ rest) = rule before (q ++ rest')) :
    rule.shown isWord rest before skip front = rule.shown isWord rest' before skip front ∧
      rule.reach isWord rest before skip front = rule.reach isWord rest' before skip front := by
  induction front generalizing before skip with
  | nil => exact ⟨rfl, rfl⟩
  | cons c cs ih =>
    have hcs := fun before skip => @ih before skip fun q hq => h q (hq.trans (List.suffix_cons c cs))
    cases skip with
    | succ skip => exact hcs (isWord c) skip
    | zero =>
      simp only [shown, reach, h (c :: cs) (List.suffix_refl _) (List.cons_ne_nil _ _) before]
      cases rule before (c :: cs ++ rest') with
      | none =>
        obtain ⟨hshown, hreach⟩ := hcs (isWord c) 0
        exact ⟨congrArg (c :: ·) hshown, hreach⟩
      | some found =>
        obtain ⟨hshown, hreach⟩ := hcs (isWord c) (found.2 - 1)
        exact ⟨congrArg (found.1 ++ ·) hshown, hreach⟩

/-- Finds that end in the front of a text, and are the same in front of two rests, show the same of the
front. -/
theorem shown_short (h : ∀ q, q <:+ front → q ≠ [] → ∀ before,
      (∀ mark taken, rule before (q ++ rest) = some (mark, taken) → taken ≤ q.length) →
      (∀ mark taken, rule before (q ++ rest') = some (mark, taken) → taken ≤ q.length) →
        rule before (q ++ rest) = rule before (q ++ rest'))
    (hreach : rule.reach isWord rest before skip front = 0)
      (hreach' : rule.reach isWord rest' before skip front = 0) :
    rule.shown isWord rest before skip front = rule.shown isWord rest' before skip front := by
  induction front generalizing before skip with
  | nil => rfl
  | cons c cs ih =>
    have hcs := fun before skip => @ih before skip fun q hq => h q (hq.trans (List.suffix_cons c cs))
    cases skip with
    | succ skip => exact hcs (isWord c) skip hreach hreach'
    | zero =>
      have hshort {rest : List α} (hreach : rule.reach isWord rest before 0 (c :: cs) = 0) (mark : List α)
        (taken : ℕ)
          (hfound : rule before (c :: cs ++ rest) = some (mark, taken)) : taken ≤ (c :: cs).length := by
        by_contra hlong
        rw [List.length_cons] at hlong
        simp only [reach, hfound] at hreach
        rw [reach_of_lt (by omega)] at hreach
        omega
      have hsame := h (c :: cs) (List.suffix_refl _) (List.cons_ne_nil _ _) before (hshort hreach)
        (hshort hreach')
      simp only [reach, shown, ← hsame] at hreach hreach' ⊢
      cases hrule : rule before (c :: cs ++ rest) with
      | none =>
        rw [hrule] at hreach hreach'
        exact congrArg (c :: ·) (hcs (isWord c) 0 hreach hreach')
      | some found =>
        rw [hrule] at hreach hreach'
        exact congrArg (found.1 ++ ·) (hcs (isWord c) (found.2 - 1) hreach hreach')

theorem reach_found (hskip : skip ≤ front.length) (h : 0 < rule.reach isWord rest before skip front) :
    ∃ q, q <:+ front ∧ q ≠ [] ∧ ∃ before' mark,
      rule before' (q ++ rest) = some (mark, q.length + rule.reach isWord rest before skip front) := by
  induction front generalizing before skip with
  | nil => exact absurd hskip (Nat.not_le.mpr h)
  | cons c cs ih =>
    have hcs (before : Bool) (skip : ℕ) (hskip : skip ≤ cs.length)
        (h : 0 < rule.reach isWord rest before skip cs) :
        ∃ q, q <:+ c :: cs ∧ q ≠ [] ∧ ∃ before' mark,
          rule before' (q ++ rest) = some (mark, q.length + rule.reach isWord rest before skip cs) := by
      obtain ⟨q, hq, hfound⟩ := ih hskip h
      exact ⟨q, hq.trans (List.suffix_cons c cs), hfound⟩
    cases skip with
    | succ skip => exact hcs (isWord c) skip (Nat.le_of_succ_le_succ hskip) h
    | zero =>
      simp only [reach] at h ⊢
      cases hrule : rule before (c :: cs ++ rest) with
      | none =>
        rw [hrule] at h
        exact hcs (isWord c) 0 (Nat.zero_le _) h
      | some found =>
        rw [hrule] at h
        by_cases hle : found.2 - 1 ≤ cs.length
        · exact hcs (isWord c) (found.2 - 1) hle h
        · -- this find is the one that runs into the rest
          have htaken : (c :: cs).length + rule.reach isWord rest (isWord c) (found.2 - 1) cs = found.2 := by
            rw [reach_of_lt (Nat.lt_of_not_le hle), List.length_cons]
            omega
          exact ⟨c :: cs, List.suffix_refl _, List.cons_ne_nil _ _, before, found.1,
            hrule.trans (congrArg (fun n => some (found.1, n)) htaken.symm)⟩

theorem shown_self (h : ∀ q, q <:+ front → q ≠ [] → ∀ before, rule before (q ++ rest) = none) :
    rule.shown isWord rest before 0 front = front := by
  induction front generalizing before with
  | nil => rfl
  | cons c cs ih =>
    simp only [shown, h (c :: cs) (List.suffix_refl _) (List.cons_ne_nil _ _) before]
    exact congrArg (c :: ·) (ih fun q hq => h q (hq.trans (List.suffix_cons c cs)))

/-- The last character of a front is shown when nothing that is found ends there. -/
theorem last_shown (h : ∀ q, q <:+ front → ∀ before mark taken, rule before (q ++ rest) = some (mark, taken) →
    0 < taken ∧ taken ≠ q.length) (hreach : rule.reach isWord rest before skip front = 0)
    (hskip : skip < front.length ∨ skip = 0) :
    (rule.shown isWord rest before skip front).getLast? = front.getLast? := by
  induction front generalizing before skip with
  | nil => rfl
  | cons c cs ih =>
    have hcs := fun before skip => @ih before skip fun q hq => h q (hq.trans (List.suffix_cons c cs))
    have hlast (front : List α) (hne : cs ≠ []) (hshown : front.getLast? = cs.getLast?) (mark : List α) :
        (mark ++ front).getLast? = (c :: cs).getLast? := by
      obtain ⟨d, hd⟩ : ∃ d, cs.getLast? = some d := ⟨_, List.getLast?_eq_some_getLast hne⟩
      rw [List.getLast?_append, hshown, hd, List.getLast?_cons, hd]
      rfl
    cases skip with
    | succ skip =>
      have hlt : skip < cs.length := by
        simp only [List.length_cons] at hskip
        omega
      have hne : cs ≠ [] := List.ne_nil_of_length_pos (Nat.zero_lt_of_lt hlt)
      exact hlast _ hne (hcs (isWord c) skip hreach (.inl hlt)) []
    | zero =>
      simp only [shown, reach] at hreach ⊢
      cases hrule : rule before (c :: cs ++ rest) with
      | none =>
        rw [hrule] at hreach
        cases cs with
        | nil => rfl
        | cons d ds => exact hlast _ (List.cons_ne_nil d ds) (hcs (isWord c) 0 hreach (.inr rfl)) [c]
      | some found =>
        rw [hrule] at hreach
        obtain ⟨hpos, hend⟩ := h (c :: cs) (List.suffix_refl _) before found.1 found.2 hrule
        rw [List.length_cons] at hend
        have hle : found.2 - 1 ≤ cs.length := by
          by_contra hlong
          have hlt := Nat.lt_of_not_le hlong
          have hzero : found.2 - 1 - cs.length = 0 := (reach_of_lt hlt).symm.trans hreach
          omega
        have hlt : found.2 - 1 < cs.length := by omega
        have hne : cs ≠ [] := List.ne_nil_of_length_pos (Nat.zero_lt_of_lt hlt)
        exact hlast _ hne (hcs (isWord c) (found.2 - 1) hreach (.inl hlt)) found.1

/-- **A find that runs into the middle of a text hides it**, when no find ends within the middle. -/
theorem replace_swallowed (hlength : middle.length = middle'.length)
    (hsame : ∀ q, q <:+ front → q ≠ [] → ∀ before,
      rule before (q ++ (middle ++ rest)) = rule before (q ++ (middle' ++ rest)))
    (hover : ∀ q before mark n, 0 < n → rule before (q ++ (middle ++ rest)) = some (mark, q.length + n) →
      middle.length ≤ n)
    (hnext : ∀ q before mark, rule before (q ++ (middle ++ rest)) = some (mark, q.length + middle.length) →
      ∀ before before', rule before rest = rule before' rest)
    (hruns : 0 < rule.reach isWord (middle ++ rest) before 0 front) :
    rule.replace isWord before 0 (front ++ (middle ++ rest)) =
      rule.replace isWord before 0 (front ++ (middle' ++ rest)) := by
  obtain ⟨hshown, hreach⟩ := @shown_same α isWord rule before 0 front (middle ++ rest) (middle' ++ rest) hsame
  obtain ⟨q, -, -, before', mark, hfound⟩ := reach_found (Nat.zero_le _) hruns
  have hle := hover q before' mark _ hruns hfound
  rw [@replace_append _ _ _ _ _ front (middle ++ rest), @replace_append _ _ _ _ _ front (middle' ++ rest),
    ← hshown, ← hreach, replace_skip hle, replace_skip (hlength ▸ hle), hlength]
  congr 1
  generalize hleft : rule.reach isWord (middle ++ rest) before 0 front - middle'.length = left
  cases left with
  | zero =>
    -- the find ends with the middle
    have hend : rule.reach isWord (middle ++ rest) before 0 front = middle.length := by omega
    rw [hend] at hfound
    exact replace_before (hnext q before' mark hfound _ _)
  | succ left => cases rest <;> rfl

end Rule

end CountyFlow.Lib
