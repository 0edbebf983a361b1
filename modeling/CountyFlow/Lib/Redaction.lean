import Mathlib.Data.List.Basic
import Mathlib.Data.List.Infix

/-!
# Replacing secrets in a text

A secret begins at the border of a word with one of several fronts and ends with a value, which goes as
far as it can.  `sub` puts a mark in the place of every secret, from left to right.
-/

namespace CountyFlow.Lib

variable {α : Type}

/-! ### Patterns -/

/-- A part of a pattern, which takes as much as it can. -/
inductive Atom (α : Type) where
  | one (p : α → Bool)
  | optional (p : α → Bool)
  | star (p : α → Bool)

/-- What is left behind an atom. -/
def Atom.run : Atom α → List α → Option (List α)
  | .one p, c :: cs => if p c then some cs else none
  | .one _, [] => none
  | .optional p, c :: cs => some (if p c then cs else c :: cs)
  | .optional _, [] => some []
  | .star p, cs => some (cs.dropWhile p)

/-- What is left behind atoms one after the other. -/
def runAtoms : List (Atom α) → List α → Option (List α)
  | [], cs => some cs
  | atom :: atoms, cs => (atom.run cs).bind (runAtoms atoms)

/-- A pattern: one of several fronts, and a value of at least one character. -/
structure Secret (α : Type) where
  fronts : List (List (Atom α))
  value : α → Bool

namespace Secret

def behind (p : Secret α) (cs : List α) (front : List (Atom α)) : Option (List α) :=
  match runAtoms front cs with
  | some (c :: rest) => if p.value c then some (rest.dropWhile p.value) else none
  | _ => none

/-- What is left behind a secret that begins the text. -/
def rest (p : Secret α) (cs : List α) : Option (List α) := p.fronts.findSome? (p.behind cs)

def Begins (p : Secret α) (a : α) : Prop := ∃ cs, (p.rest (a :: cs)).isSome

end Secret

variable (isWord : α → Bool)

/-- A word begins or ends between a character and the text behind it. -/
def border (prev : Option α) (cs : List α) : Bool := prev.any isWord != cs.head?.any isWord

/-- What is left behind a secret at this place of a text. -/
def Secret.matchAt (p : Secret α) (prev : Option α) (cs : List α) : Option (List α) :=
  if border isWord prev cs then p.rest cs else none

/-- The text with a mark in the place of each secret; `skip` is how much of a secret is still to come. -/
def sub (mark : List α) (p : Secret α) : Option α → ℕ → List α → List α
  | _, _, [] => []
  | _, skip + 1, c :: cs => sub mark p (some c) skip cs
  | prev, 0, c :: cs =>
    match p.matchAt isWord prev (c :: cs) with
    | some rest => mark ++ sub mark p (some c) (cs.length - rest.length) cs
    | none => c :: sub mark p (some c) 0 cs

/-- No secret is found in the text. -/
def Free (p : Secret α) : Option α → List α → Prop
  | _, [] => True
  | prev, c :: cs => p.matchAt isWord prev (c :: cs) = none ∧ Free p (some c) cs

/-! ### What is left behind a match -/

variable {cs : List α}

/-- An atom takes from the front. -/
theorem Atom.run_suffix {atom : Atom α} {rest : List α} (h : atom.run cs = some rest) : rest <:+ cs := by
  cases atom with
  | one p =>
    cases cs with
    | nil => cases h
    | cons c cs =>
      simp only [Atom.run] at h
      split at h
      · cases h
        exact List.suffix_cons c _
      · cases h
  | optional p =>
    cases cs with
    | nil =>
      cases h
      exact List.suffix_refl []
    | cons c cs =>
      cases h
      split
      · exact List.suffix_cons c cs
      · exact List.suffix_refl _
  | star p =>
    cases h
    exact List.dropWhile_suffix p

variable {front : List (Atom α)}

theorem runAtoms_suffix {rest : List α} (h : runAtoms front cs = some rest) : rest <:+ cs := by
  induction front generalizing cs with
  | nil =>
    cases h
    exact List.suffix_refl _
  | cons atom front ih =>
    obtain ⟨middle, hatom, hfront⟩ := Option.bind_eq_some_iff.mp h
    exact (ih hfront).trans (Atom.run_suffix hatom)

variable {p : Secret α}

theorem Secret.rest_cons {c : α} {rest : List α} (h : p.rest (c :: cs) = some rest) :
    rest <:+ cs ∧ ∀ x ∈ rest.head?, p.value x = false := by
  obtain ⟨front, -, hbehind⟩ := List.exists_of_findSome?_eq_some h
  unfold behind at hbehind
  split at hbehind
  · rename_i x after hrun
    split at hbehind
    · cases hbehind
      constructor
      · have htail : after <:+ cs := by
          obtain ⟨front', hfront'⟩ := runAtoms_suffix hrun
          cases front' with
          | nil =>
            obtain ⟨-, rfl⟩ := List.cons.inj hfront'
            exact List.suffix_refl _
          | cons d front' =>
            exact ⟨front' ++ [x], by simpa using (List.cons.inj hfront').2⟩
        exact (List.dropWhile_suffix _).trans htail
      · intro y hy
        have hhead := List.head?_dropWhile_not p.value after
        rw [Option.mem_def.mp hy] at hhead
        simpa using hhead
    · cases hbehind
  · cases hbehind

variable {prev : Option α}

theorem Secret.rest_of_matchAt {rest : List α}
    (h : p.matchAt isWord prev cs = some rest) : p.rest cs = some rest := by
  unfold matchAt at h
  split at h
  · exact h
  · cases h

theorem drop_suffix {rest : List α} (h : rest <:+ cs) : cs.drop (cs.length - rest.length) = rest := by
  obtain ⟨front, rfl⟩ := h
  simp

/-! ### What has no secret -/

variable {mark : List α}

theorem sub_of_free (h : Free isWord p prev cs) : sub isWord mark p prev 0 cs = cs := by
  induction cs generalizing prev with
  | nil => rfl
  | cons c cs ih =>
    obtain ⟨hnone, hfree⟩ := h
    simp only [sub, hnone, ih hfree]

theorem sub_shape (mark : List α) (p : Secret α) (prev : Option α) (cs : List α) :
    sub isWord mark p prev 0 cs = cs ∨
      ∃ x a rest rest', p.Begins a ∧ cs = x ++ a :: rest ∧ sub isWord mark p prev 0 cs = x ++
      (mark ++ rest') := by
  induction cs generalizing prev with
  | nil => exact .inl rfl
  | cons c cs ih =>
    cases hmatch : p.matchAt isWord prev (c :: cs) with
    | some rest =>
      have hrest := Secret.rest_of_matchAt isWord hmatch
      refine .inr ⟨[], c, cs, sub isWord mark p (some c) (cs.length - rest.length) cs,
        ⟨cs, by simp [hrest]⟩, rfl, ?_⟩
      simp only [sub, hmatch]
      rfl
    | none =>
      rcases ih (some c) with hsame | ⟨x, a, rest, rest', ha, hcs, hsub⟩
      · left
        simp only [sub, hmatch, hsame]
      · right
        refine ⟨c :: x, a, rest, rest', ha, by rw [hcs]; rfl, ?_⟩
        simp only [sub, hmatch, hsub]
        rfl

/-! ### A mark that changes nothing -/

/-- The atom does not match the first character of the mark, and ends before the other one if it can
take more. -/
def Atom.Passes (first a : α) : Atom α → Prop
  | .one p => p first = false
  | .optional p | .star p => p first = false ∧ p a = false

instance (first a : α) : (atom : Atom α) → Decidable (atom.Passes first a)
  | .one p => inferInstanceAs (Decidable (p first = false))
  | .optional p | .star p => inferInstanceAs (Decidable (p first = false ∧ p a = false))

/-- What is asked of the mark `first :: tail` where it stands for the secrets `q`, so that no secret `p`
comes of it. -/
structure Steady (p q : Secret α) (first : α) (tail : List α) : Prop where
  passes : ∀ a, q.Begins a → ∀ front ∈ p.fronts, ∀ atom ∈ front, atom.Passes first a
  value : ∀ a, q.Begins a → p.value first = true → p.value a = true
  after : ∀ a, p.Begins a → q.value a = true
  inside : ∀ s, s <:+ first :: tail → s ≠ [] → ∀ rest, p.rest (s ++ rest) = none

variable {first a : α} {x r r' s : List α}

theorem runAtoms_transfer (hpasses : ∀ atom ∈ front, atom.Passes first a)
    (h : runAtoms front (x ++ first :: r) = some s) :
    ∃ y, s = y ++ first :: r ∧ runAtoms front (x ++ a :: r') = some (y ++ a :: r') := by
  induction front generalizing x with
  | nil => exact ⟨x, (Option.some.inj h).symm, rfl⟩
  | cons atom front ih =>
    obtain ⟨middle, hatom, hfront⟩ := Option.bind_eq_some_iff.mp h
    have hatom' := hpasses atom (List.mem_cons_self ..)
    have hrest : ∀ atom' ∈ front, atom'.Passes first a := fun atom' hmem =>
      hpasses atom' (List.mem_cons_of_mem _ hmem)
    suffices hstep : ∃ z, middle = z ++ first :: r ∧ atom.run (x ++ a :: r') = some (z ++ a :: r') by
      obtain ⟨z, rfl, hrun⟩ := hstep
      obtain ⟨y, hy, hruns⟩ := ih hrest hfront
      exact ⟨y, hy, Option.bind_eq_some_iff.mpr ⟨_, hrun, hruns⟩⟩
    cases atom with
    | one p =>
      cases x with
      | nil => simp [Atom.run, show p first = false from hatom'] at hatom
      | cons c x =>
        simp only [List.cons_append, Atom.run] at hatom ⊢
        split at hatom
        · exact ⟨x, (Option.some.inj hatom).symm, by simp [*]⟩
        · cases hatom
    | optional p =>
      obtain ⟨hfirst, ha⟩ := hatom'
      cases x with
      | nil =>
        refine ⟨[], ?_, ?_⟩
        · simpa [Atom.run, hfirst] using hatom.symm
        · simp [Atom.run, ha]
      | cons c x =>
        by_cases hc : p c = true
        · exact ⟨x, by simpa [Atom.run, hc] using hatom.symm, by simp [Atom.run, hc]⟩
        · exact ⟨c :: x, by simpa [Atom.run, hc] using hatom.symm, by simp [Atom.run, hc]⟩
    | star p =>
      obtain ⟨hfirst, ha⟩ := hatom'
      cases hatom
      refine ⟨x.dropWhile p, ?_, ?_⟩
      · rw [List.dropWhile_append]
        split
        · rename_i hempty
          simp [List.isEmpty_iff.mp hempty, hfirst]
        · rfl
      · simp only [Atom.run]
        rw [List.dropWhile_append]
        split
        · rename_i hempty
          simp [List.isEmpty_iff.mp hempty, ha]
        · rfl

variable {q : Secret α} {tail : List α}

theorem Steady.rest_transfer (steady : Steady p q first tail) (ha : q.Begins a)
    (h : (p.rest (x ++ first :: r)).isSome) : (p.rest (x ++ a :: r')).isSome := by
  unfold Secret.rest at h ⊢
  rw [List.findSome?_isSome_iff] at h ⊢
  obtain ⟨front, hmem, hbehind⟩ := h
  refine ⟨front, hmem, ?_⟩
  unfold Secret.behind at hbehind ⊢
  cases hrun : runAtoms front (x ++ first :: r) with
  | none => simp [hrun] at hbehind
  | some s =>
    obtain ⟨y, rfl, hrun'⟩ :
        ∃ y, s = y ++ first :: r ∧ runAtoms front (x ++ a :: r') = some (y ++ a :: r') :=
      runAtoms_transfer (steady.passes a ha front hmem) hrun
    rw [hrun']
    rw [hrun] at hbehind
    cases y with
    | nil =>
      have hfirst : p.value first = true := by
        by_contra hne
        simp [hne] at hbehind
      simp [steady.value a ha hfirst]
    | cons c y =>
      have hc : p.value c = true := by
        by_contra hne
        simp [hne] at hbehind
      simp [hc]

theorem Steady.free_mark (steady : Steady p q first tail) (hs : s <:+ first :: tail) (prev : Option α)
    {rest : List α} (hrest : ∀ prev, Free isWord p prev rest) : Free isWord p prev (s ++ rest) := by
  induction s generalizing prev with
  | nil => exact hrest prev
  | cons c s ih =>
    constructor
    · have hnone := steady.inside (c :: s) hs (by simp) rest
      simp only [Secret.matchAt]
      split
      · exact hnone
      · rfl
    · exact ih ((List.suffix_cons c s).trans hs) (some c)

/-- **What has been replaced is not found again**, and a secret of another kind is found only where there
was one.  The induction is on the text; behind a mark the text begins with what no value takes. -/
theorem free_sub (steady : Steady p q first tail) {prev' : Option α} {skip : ℕ}
    (hplace : skip = 0 ∧ prev' = prev ∨ ∀ x ∈ (cs.drop skip).head?, q.value x = false)
    (hfree : p = q ∨ Free isWord p prev cs) :
    Free isWord p prev' (sub isWord (first :: tail) q prev skip cs) := by
  induction cs generalizing prev prev' skip with
  | nil => trivial
  | cons c cs ih =>
    have hfree' : p = q ∨ Free isWord p (some c) cs := hfree.imp_right And.right
    cases skip with
    | succ skip =>
      show Free isWord p prev' (sub isWord (first :: tail) q (some c) skip cs)
      rcases hplace with ⟨hzero, -⟩ | hvalue
      · cases hzero
      · exact ih (.inr hvalue) hfree'
    | zero =>
      cases hmatch : q.matchAt isWord prev (c :: cs) with
      | some rest =>
        obtain ⟨hsuffix, hvalue⟩ := Secret.rest_cons (Secret.rest_of_matchAt isWord hmatch)
        simp only [sub, hmatch]
        apply steady.free_mark isWord (List.suffix_refl _)
        intro prev''
        apply ih (.inr _) hfree'
        rw [drop_suffix hsuffix]
        exact hvalue
      | none =>
        simp only [sub, hmatch]
        refine ⟨?_, ih (.inl ⟨rfl, rfl⟩) hfree'⟩
        by_contra hfound
        obtain ⟨found, hfound⟩ := Option.ne_none_iff_exists'.mp hfound
        simp only [Secret.matchAt] at hfound
        split at hfound
        · rename_i hborder
          have hbegins : p.Begins c := ⟨_, by rw [hfound]; rfl⟩
          rcases hplace with ⟨-, rfl⟩ | hvalue
          · -- the same secret was there before the replacement behind it
            have hbefore : (p.rest (c :: cs)).isSome := by
              rcases sub_shape isWord (first :: tail) q (some c) cs with hsame | ⟨x, a, r, r', ha, hcs, hsub⟩
              · rw [hsame] at hfound
                simp [hfound]
              · rw [hcs]
                rw [hsub] at hfound
                have hsome : (p.rest ((c :: x) ++ first :: (tail ++ r'))).isSome := by
                  show (p.rest (c :: (x ++ (first :: tail ++ r')))).isSome = true
                  rw [hfound]
                  rfl
                exact steady.rest_transfer ha hsome
            have hmatch' : (p.matchAt isWord prev' (c :: cs)).isSome := by
              simp only [Secret.matchAt]
              rw [if_pos (by simpa [border] using hborder)]
              exact hbefore
            rcases hfree with rfl | hfree
            · simp [hmatch] at hmatch'
            · simp [hfree.1] at hmatch'
          · have htaken := steady.after c hbegins
            rw [hvalue c rfl] at htaken
            cases htaken
        · cases hfound

theorem free_sub_text (steady : Steady p q first tail) (cs : List α) (hfree : p = q ∨ Free isWord p none cs) :
    Free isWord p none (sub isWord (first :: tail) q none 0 cs) :=
  free_sub isWord steady (.inl ⟨rfl, rfl⟩) hfree

/-! ### The ends of the text -/

theorem sub_ne_nil (hmark : mark ≠ []) (p : Secret α) (prev : Option α) (hcs : cs ≠ []) :
    sub isWord mark p prev 0 cs ≠ [] := by
  cases cs with
  | nil => exact absurd rfl hcs
  | cons c cs =>
    simp only [sub]
    split
    · simp [hmark]
    · simp

theorem head_sub (hmark : mark ≠ []) {c : α}
    (h : c ∈ (sub isWord mark p prev 0 cs).head?) : c ∈ cs.head? ∨ c ∈ mark.head? := by
  cases cs with
  | nil => cases h
  | cons d cs =>
    simp only [sub] at h
    split at h
    · rw [List.head?_append_of_ne_nil _ hmark] at h
      exact .inr h
    · exact .inl h

theorem last_sub (hmark : mark ≠ []) {skip : ℕ} {c : α}
    (h : c ∈ (sub isWord mark p prev skip cs).getLast?) : c ∈ cs.getLast? ∨ c ∈ mark.getLast? := by
  induction cs generalizing prev skip with
  | nil => cases h
  | cons d cs ih =>
    have hlast (hcs : c ∈ cs.getLast?) : c ∈ (d :: cs).getLast? := by
      rw [List.getLast?_cons, Option.mem_def.mp hcs]
      rfl
    cases skip with
    | succ skip => exact (ih h).imp_left hlast
    | zero =>
      simp only [sub] at h
      split at h
      · rw [List.getLast?_append] at h
        rcases Option.or_eq_some_iff.mp (Option.mem_def.mp h) with h | ⟨-, h⟩
        · exact (ih h).imp_left hlast
        · exact .inr h
      · rw [List.getLast?_cons] at h
        cases hsub : (sub isWord mark p (some d) 0 cs).getLast? with
        | none =>
          left
          rw [hsub] at h
          cases h
          have hnil : cs = [] := by
            by_contra hne
            exact sub_ne_nil isWord hmark p _ hne (List.getLast?_eq_none_iff.mp hsub)
          simp [hnil]
        | some e =>
          rw [hsub] at h
          exact (ih (hsub.trans h)).imp_left hlast

end CountyFlow.Lib
