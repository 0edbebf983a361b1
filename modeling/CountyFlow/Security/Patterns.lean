import CountyFlow.Security.Redaction

/-!
# Two patterns of the redactor

How `BEARER_OR_BASIC` and `JWT_VALUE` meet a token that stands in a text: what they find before it, in it and
around it, and how much of that depends on the characters of the token.
-/

namespace CountyFlow.Security.WordTable

open CountyFlow.Lib
open CountyFlow.Memory (ignoreCase)
open CountyFlow.Worker.Db (isSpace)

variable (w : WordTable)

/-! ### Characters -/

/-- What a token with its dots is made of. -/
def inToken (c : Char) : Bool := isToken c || c = '.'

variable {c : Char}

theorem alphanum_bounds (h : c.isAlphanum = true) :
    48 ≤ c.toNat ∧ c.toNat ≤ 57 ∨ 65 ≤ c.toNat ∧ c.toNat ≤ 90 ∨ 97 ≤ c.toNat ∧ c.toNat ≤ 122 := by
  change ((decide (65 ≤ c.val ∧ c.val ≤ 90) || (decide (97 ≤ c.val) && decide (c.val ≤ 122))) ||
    (decide (48 ≤ c.val) && decide (c.val ≤ 57))) = true at h
  simp only [Bool.or_eq_true, Bool.and_eq_true, decide_eq_true_eq, UInt32.le_iff_toNat_le] at h
  have hnat : c.toNat = c.val.toNat := rfl
  rcases h with (h | h) | h
  · exact .inr (.inl (hnat ▸ h))
  · exact .inr (.inr (hnat ▸ h))
  · exact .inl (hnat ▸ h)

theorem not_space_of_inToken (h : inToken c = true) : isSpace c = false := by
  have hsmall (hbounds : 45 ≤ c.toNat ∧ c.toNat ≤ 122) : isSpace c = false := by
    unfold isSpace
    simp only [List.mem_cons, List.not_mem_nil, or_false, decide_eq_false_iff_not, not_or]
    omega
  apply hsmall
  simp only [inToken, isToken, Bool.or_eq_true, decide_eq_true_eq] at h
  rcases h with ((h | rfl) | rfl) | rfl
  · have hbounds := alphanum_bounds h
    omega
  all_goals decide

theorem credential_of_inToken (h : inToken c = true) : isCredential c = true := by
  simp only [inToken, isToken, Bool.or_eq_true, decide_eq_true_eq] at h
  rcases h with ((h | rfl) | rfl) | rfl
  · simp [isCredential, h]
  all_goals decide

/-- The letters of the schemes are those of a credential, and no spaces. -/
theorem letter_of_scheme {scheme : List Char} (h : scheme ∈ authenticationSchemes) {letter : Char}
    (hletter : letter ∈ scheme) (hc : c ∈ ignoreCase letter) : isCredential c = true ∧ isSpace c = false := by
  have hcases : (authenticationSchemes.all fun scheme => scheme.all fun letter =>
    (ignoreCase letter).all fun c =>
      isCredential c && !isSpace c) = true := by decide
  have hcase := List.all_eq_true.mp (List.all_eq_true.mp (List.all_eq_true.mp hcases scheme h) letter hletter)
    c hc
  simpa using hcase

theorem isWord_dot : w.isWord '.' = false := by
  rw [w.ascii '.' (by decide)]
  rfl

/-! ### Spelled letters -/

theorem spells_append (letters front rest : List Char) : spells letters (front ++ rest) =
    (spells (letters.take front.length) front && spells (letters.drop front.length) rest) := by
  induction front generalizing letters with
  | nil => cases letters <;> simp [spells]
  | cons c cs ih =>
    cases letters with
    | nil => simp [spells]
    | cons letter letters => simp [spells, ih, Bool.and_assoc]

variable {letters cs : List Char}

theorem spells_length (h : spells letters cs = true) : letters.length ≤ cs.length := by
  induction letters generalizing cs with
  | nil => exact Nat.zero_le _
  | cons letter letters ih =>
    cases cs with
    | nil => cases h
    | cons c cs =>
      simp only [spells, Bool.and_eq_true] at h
      exact Nat.succ_le_succ (ih h.2)

theorem spells_all (h : spells letters cs = true) :
    ∀ c ∈ cs.take letters.length, ∃ letter ∈ letters, c ∈ ignoreCase letter := by
  induction letters generalizing cs with
  | nil => nofun
  | cons letter letters ih =>
    cases cs with
    | nil => cases h
    | cons c cs =>
      simp only [spells, Bool.and_eq_true, decide_eq_true_eq] at h
      intro d hd
      rcases List.mem_cons.mp hd with rfl | hd
      · exact ⟨letter, List.mem_cons_self, h.1⟩
      · obtain ⟨other, hother, hcase⟩ := ih h.2 d hd
        exact ⟨other, List.mem_cons_of_mem letter hother, hcase⟩

theorem spells_front {front : List Char} (h : letters.length ≤ front.length) (rest : List Char) :
    spells letters (front ++ rest) = spells letters front := by
  rw [spells_append, List.take_of_length_le h, List.drop_eq_nil_of_le h]
  exact Bool.and_true _

/-! ### What goes through a text -/

variable {p : Char → Bool}

theorem takeWhile_append_stop {front : List Char} (h : front.dropWhile p ≠ [])
    (rest : List Char) : (front ++ rest).takeWhile p = front.takeWhile p := by
  rw [List.takeWhile_append, if_neg]
  intro hall
  apply h
  rw [List.dropWhile_eq_nil_iff]
  apply List.takeWhile_eq_self_iff.mp
  exact (List.takeWhile_prefix p).eq_of_length hall

theorem dropWhile_append_stop {front : List Char} (h : front.dropWhile p ≠ [])
    (rest : List Char) : (front ++ rest).dropWhile p = front.dropWhile p ++ rest := by
  rw [List.dropWhile_append, if_neg]
  simpa using h

theorem drop_length_takeWhile (p : Char → Bool) (cs : List Char) :
    cs.drop (cs.takeWhile p).length = cs.dropWhile p := by
  calc cs.drop (cs.takeWhile p).length
      = (cs.takeWhile p ++ cs.dropWhile p).drop (cs.takeWhile p).length := by
          rw [List.takeWhile_append_dropWhile]
    _ = cs.dropWhile p := List.drop_left

/-- What is in front of the first space. -/
def firstWord (cs : List Char) : List Char := cs.takeWhile fun c => !isSpace c

/-- The first space and what is behind it. -/
def behindWord (cs : List Char) : List Char := cs.dropWhile fun c => !isSpace c

theorem firstWord_append_behindWord (cs : List Char) : firstWord cs ++ behindWord cs = cs :=
  List.takeWhile_append_dropWhile

theorem firstWord_append {front : List Char} (h : ∀ c ∈ front, isSpace c = false) (rest : List Char) :
    firstWord (front ++ rest) = front ++ firstWord rest ∧ behindWord (front ++ rest) = behindWord rest := by
  have hall : ∀ c ∈ front, (!isSpace c) = true := fun c hc => by rw [h c hc]; rfl
  exact ⟨List.takeWhile_append_of_pos hall, List.dropWhile_append_of_pos hall⟩

/-! ### Credentials -/

theorem credential_none (h : cs.takeWhile isSpace = []) : credential cs = none :=
  if_pos (.inl h)

variable {n : ℕ}

theorem credential_some (h : credential cs = some n) :
    0 < n ∧ n ≤ cs.length ∧ (∃ space rest, cs = space :: rest ∧ isSpace space = true) ∧
      ∀ c ∈ (cs.drop n).head?, isCredential c = false := by
  simp only [credential] at h
  split at h
  · cases h
  · rename_i hsome
    rw [not_or] at hsome
    obtain rfl := Option.some.inj h
    have hspaces : 0 < (cs.takeWhile isSpace).length := List.length_pos_iff.mpr hsome.1
    have hcs : (cs.takeWhile isSpace).length + (cs.dropWhile isSpace).length = cs.length := by
      rw [← List.length_append, List.takeWhile_append_dropWhile]
    have hvalue := (List.takeWhile_prefix isCredential (l := cs.dropWhile isSpace)).length_le
    refine ⟨by omega, by omega, ?_, fun c hc => ?_⟩
    · cases cs with
      | nil => exact absurd rfl hsome.1
      | cons space rest =>
        refine ⟨space, rest, rfl, ?_⟩
        by_contra hspace
        rw [List.takeWhile_cons, if_neg hspace] at hspaces
        exact absurd hspaces (lt_irrefl 0)
    · rw [← List.drop_drop, drop_length_takeWhile, drop_length_takeWhile] at hc
      have hnot := List.head?_dropWhile_not isCredential (cs.dropWhile isSpace)
      rw [Option.mem_def.mp hc] at hnot
      simpa using hnot

/-- Two characters that a credential takes for the same. -/
def SameKind (c c' : Char) : Prop := isSpace c = isSpace c' ∧ isCredential c = isCredential c'

theorem takeWhile_same {R : Char → Char → Prop} (hp : ∀ c c', R c c' → p c = p c') {cs' : List Char}
    (h : List.Forall₂ R cs cs') : (cs.takeWhile p).length = (cs'.takeWhile p).length ∧
      List.Forall₂ R (cs.dropWhile p) (cs'.dropWhile p) := by
  induction h with
  | nil => exact ⟨rfl, .nil⟩
  | @cons c c' cs cs' hc hcs ih =>
    simp only [List.takeWhile_cons, List.dropWhile_cons, hp c c' hc]
    split
    · exact ⟨congrArg Nat.succ ih.1, ih.2⟩
    · exact ⟨rfl, .cons hc hcs⟩

theorem credential_same {cs' : List Char} (h : List.Forall₂ SameKind cs cs') :
    credential cs = credential cs' := by
  obtain ⟨hspaces, hdrop⟩ := takeWhile_same (p := isSpace) (fun c c' hc => hc.1) h
  obtain ⟨hvalue, -⟩ := takeWhile_same (p := isCredential) (fun c c' hc => hc.2) hdrop
  unfold credential
  simp only [← List.length_eq_zero_iff, hspaces, hvalue]

theorem sameKind_refl (cs : List Char) : List.Forall₂ SameKind cs cs :=
  List.forall₂_same.mpr fun _ _ => ⟨rfl, rfl⟩

theorem sameKind_tokens {token token' : List Char} (h : ∀ c ∈ token, inToken c = true)
    (h' : ∀ c ∈ token', inToken c = true) (hlength : token.length = token'.length) :
    List.Forall₂ SameKind token token' := by
  refine List.forall₂_iff_get.mpr ⟨hlength, fun i hi hi' => ?_⟩
  have hc := h _ (List.get_mem token ⟨i, hi⟩)
  have hc' := h' _ (List.get_mem token' ⟨i, hi'⟩)
  exact ⟨(not_space_of_inToken hc).trans (not_space_of_inToken hc').symm,
    (credential_of_inToken hc).trans (credential_of_inToken hc').symm⟩

/-! ### `BEARER_OR_BASIC` -/

theorem findSome?_ite {β γ : Type} {p : β → Bool} {f : β → Option γ} {found : Option γ}
    {alternatives : List β} (h : ∀ x ∈ alternatives, f x = if p x then found else none) :
    alternatives.findSome? f = if alternatives.any p then found else none := by
  induction alternatives with
  | nil => rfl
  | cons x xs ih =>
    rw [List.findSome?_cons, h x List.mem_cons_self, ih fun y hy => h y (List.mem_cons_of_mem x hy),
      List.any_cons]
    cases p x <;> cases found <;> simp

def isScheme (cs : List Char) : Bool :=
  authenticationSchemes.any fun scheme => scheme.length = cs.length && spells scheme cs

theorem isScheme_short (h : isScheme cs = true) : cs.length ≤ 6 := by
  obtain ⟨scheme, hscheme, hcs⟩ := List.any_eq_true.mp h
  have hsix : ∀ scheme ∈ authenticationSchemes, scheme.length ≤ 6 := by decide
  have hlength := of_decide_eq_true (Bool.and_eq_true_iff.mp hcs).1
  exact hlength ▸ hsix scheme hscheme

theorem isScheme_credential (h : isScheme cs = true) : ∀ c ∈ cs, isCredential c = true := by
  obtain ⟨scheme, hscheme, hcs⟩ := List.any_eq_true.mp h
  obtain ⟨hlength, hspells⟩ := Bool.and_eq_true_iff.mp hcs
  intro c hc
  have hmem : c ∈ cs.take scheme.length := by
    rwa [of_decide_eq_true hlength, List.take_length]
  obtain ⟨letter, hletter, hcase⟩ := spells_all hspells c hmem
  exact (letter_of_scheme hscheme hletter hcase).1

/-- **What `BEARER_OR_BASIC` finds at a place**: the word up to the first space is a scheme, and a
credential is behind it. -/
theorem bearer_eq (before : Bool) (cs : List Char) : w.bearerOrBasic before cs =
    if w.border before cs && isScheme (firstWord cs) then
      (credential (behindWord cs)).map fun taken =>
        (firstWord cs ++ ' ' :: redactedMark, (firstWord cs).length + taken)
    else none := by
  have hcs := firstWord_append_behindWord cs
  have hdrop : cs.drop (firstWord cs).length = behindWord cs := drop_length_takeWhile _ cs
  have halternatives : ∀ scheme ∈ authenticationSchemes,
      (if spells scheme cs then
        (credential (cs.drop scheme.length)).map fun taken =>
          (cs.take scheme.length ++ ' ' :: redactedMark, scheme.length + taken)
      else none) =
      if scheme.length = (firstWord cs).length && spells scheme (firstWord cs) then
        (credential (behindWord cs)).map fun taken =>
          (firstWord cs ++ ' ' :: redactedMark, (firstWord cs).length + taken)
      else none := by
    intro scheme hscheme
    by_cases hspells : spells scheme cs = true
    · have hnospace : ∀ c ∈ cs.take scheme.length, isSpace c = false := fun c hc => by
        obtain ⟨letter, hletter, hcase⟩ := spells_all hspells c hc
        exact (letter_of_scheme hscheme hletter hcase).2
      obtain ⟨hword, -⟩ := firstWord_append hnospace (cs.drop scheme.length)
      rw [List.take_append_drop] at hword
      have htake : (cs.take scheme.length).length = scheme.length :=
        List.length_take_of_le (spells_length hspells)
      rw [if_pos hspells]
      by_cases hlength : scheme.length = (firstWord cs).length
      · have hfirst : spells scheme (firstWord cs) = true := by
          rw [← hcs, spells_front hlength.le] at hspells
          exact hspells
        have hprefix : cs.take (firstWord cs).length = firstWord cs := by
          calc cs.take (firstWord cs).length
              = (firstWord cs ++ behindWord cs).take (firstWord cs).length := by rw [hcs]
            _ = firstWord cs := List.take_left
        simp only [hlength, hfirst, hdrop, hprefix, decide_true, Bool.and_true, if_true]
      · -- no space follows the scheme
        have hnone : credential (cs.drop scheme.length) = none := by
          apply credential_none
          cases hrest : cs.drop scheme.length with
          | nil => rfl
          | cons c rest =>
            rw [List.takeWhile_cons, if_neg]
            intro hspace
            have hnil : firstWord (c :: rest) = [] := List.takeWhile_cons_of_neg (by simp [hspace])
            rw [hrest, hnil, List.append_nil] at hword
            exact hlength (by rw [hword, htake])
        simp [hnone, hlength]
    · have hfirst (hlength : scheme.length = (firstWord cs).length) : spells scheme (firstWord cs) =
        false := by
        by_contra hfirst
        rw [Bool.not_eq_false, ← spells_front hlength.le (behindWord cs), hcs] at hfirst
        exact hspells hfirst
      by_cases hlength : scheme.length = (firstWord cs).length
      · simp [hspells, hfirst hlength]
      · simp [hspells, hlength]
  unfold bearerOrBasic
  rw [findSome?_ite halternatives]
  cases w.border before cs with
  | false => rfl
  | true => rfl

variable {before : Bool} {mark : List Char} {taken : ℕ}

theorem bearer_some (h : w.bearerOrBasic before cs = some (mark, taken)) :
    mark = firstWord cs ++ ' ' :: redactedMark ∧ isScheme (firstWord cs) = true ∧
      ∃ n, credential (behindWord cs) = some n ∧ taken = (firstWord cs).length + n := by
  rw [bearer_eq] at h
  split at h
  · rename_i hscheme
    obtain ⟨n, hn, hfound⟩ := Option.map_eq_some_iff.mp h
    obtain ⟨rfl, rfl⟩ := Prod.mk.inj hfound
    exact ⟨rfl, (Bool.and_eq_true_iff.mp hscheme).2, n, hn, rfl⟩
  · cases h

theorem bearer_stops (h : w.bearerOrBasic before cs = some (mark, taken)) :
    0 < taken ∧ ∀ c ∈ (cs.drop taken).head?, isCredential c = false := by
  obtain ⟨-, -, n, hn, rfl⟩ := w.bearer_some h
  obtain ⟨hpos, -, -, hstops⟩ := credential_some hn
  refine ⟨Nat.add_pos_right _ hpos, fun c hc => hstops c ?_⟩
  rwa [← List.drop_drop,
    show cs.drop (firstWord cs).length = behindWord cs from drop_length_takeWhile _ cs] at hc

/-- No scheme is as long as this word. -/
theorem bearer_long {front rest : List Char} (hfront : ∀ c ∈ front, isSpace c = false)
    (hlong : rest = [] ∨ 6 < front.length) (before : Bool) :
    w.bearerOrBasic before (front ++ rest) = none := by
  cases hfound : w.bearerOrBasic before (front ++ rest) with
  | none => rfl
  | some found =>
    obtain ⟨-, hscheme, n, hn, -⟩ := w.bearer_some hfound
    obtain ⟨hword, hbehind⟩ := firstWord_append hfront rest
    rw [hbehind] at hn
    rcases hlong with rfl | hlong
    · cases hn
    · have hshort := isScheme_short hscheme
      rw [hword, List.length_append] at hshort
      omega

theorem bearer_none {rest : List Char} (h : ∀ c ∈ rest.head?, isCredential c = false) (before : Bool) :
    w.bearerOrBasic before rest = none := by
  cases hfound : w.bearerOrBasic before rest with
  | none => rfl
  | some found =>
    obtain ⟨-, hscheme, -⟩ := w.bearer_some hfound
    cases rest with
    | nil => cases hscheme
    | cons c cs =>
      by_cases hspace : isSpace c = true
      · rw [firstWord, List.takeWhile_cons_of_neg (by simp [hspace])] at hscheme
        cases hscheme
      · have hmem : c ∈ firstWord (c :: cs) := by
          rw [firstWord, List.takeWhile_cons_of_pos (by simp [hspace])]
          exact List.mem_cons_self
        have hcredential := isScheme_credential hscheme c hmem
        rw [h c rfl] at hcredential
        cases hcredential

theorem border_append {front : List Char} (h : front ≠ []) (before : Bool) (rest : List Char) :
    w.border before (front ++ rest) = w.border before front := by
  cases front with
  | nil => exact absurd rfl h
  | cons c cs => rfl

section Tokens

variable {token token' front rest : List Char} (htoken : ∀ c ∈ token, inToken c = true)

include htoken

theorem no_space : ∀ c ∈ token, isSpace c = false := fun c hc => not_space_of_inToken (htoken c hc)

/-- In front of two tokens the same is found. -/
theorem bearer_same (htoken' : ∀ c ∈ token', inToken c = true) (hlength : token.length = token'.length)
    (hlong : rest = [] ∨ 6 ≤ token.length) (hfront : front ≠ []) (before : Bool) :
    w.bearerOrBasic before (front ++ (token ++ rest)) =
      w.bearerOrBasic before (front ++ (token' ++ rest)) := by
  by_cases hspace : front.dropWhile (fun c => !isSpace c) = []
  · have hpos : 0 < front.length := List.length_pos_iff.mpr hfront
    have hnone (token : List Char) (htoken : ∀ c ∈ token, inToken c = true)
      (hlong : rest = [] ∨ 6 ≤ token.length) :
        w.bearerOrBasic before (front ++ (token ++ rest)) = none := by
      rw [← List.append_assoc]
      refine w.bearer_long (fun c hc => ?_) ?_ before
      · rcases List.mem_append.mp hc with hc | hc
        · simpa using List.dropWhile_eq_nil_iff.mp hspace c hc
        · exact no_space htoken c hc
      · rw [List.length_append]
        exact hlong.imp_right fun hlong => by omega
    rw [hnone token htoken hlong, hnone token' htoken' (hlength ▸ hlong)]
  · have hword (rest : List Char) : firstWord (front ++ rest) = firstWord front :=
      takeWhile_append_stop hspace rest
    have hbehind (rest : List Char) : behindWord (front ++ rest) = behindWord front ++ rest :=
      dropWhile_append_stop hspace rest
    have hcredential : credential (behindWord front ++ (token ++ rest)) =
        credential (behindWord front ++ (token' ++ rest)) :=
      credential_same (List.rel_append (sameKind_refl _)
        (List.rel_append (sameKind_tokens htoken htoken' hlength) (sameKind_refl _)))
    simp only [bearer_eq, border_append w hfront, hword, hbehind, hcredential]

/-- A credential that reaches a token runs over all of it. -/
theorem bearer_runs_over
    (h : w.bearerOrBasic before (front ++ (token ++ rest)) = some (mark, front.length + n)) :
    token.length ≤ n := by
  by_contra hlt
  rw [not_le] at hlt
  have hhead : (token.get ⟨n, hlt⟩) ∈ ((front ++ (token ++ rest)).drop (front.length + n)).head? := by
    rw [List.drop_length_add_append, List.drop_append_of_le_length hlt.le, List.drop_eq_getElem_cons hlt]
    rfl
  have hstops := (w.bearer_stops h).2 _ hhead
  rw [credential_of_inToken (htoken _ (List.get_mem _ _))] at hstops
  cases hstops

/-- **A credential that runs into a token hides it**, and what is behind comes out the same. -/
theorem bearer_swallows (htoken' : ∀ c ∈ token', inToken c = true) (hlength : token.length = token'.length)
    (hlong : rest = [] ∨ 6 ≤ token.length)
    (hruns : 0 < w.bearerOrBasic.reach w.isWord (token ++ rest) false 0 front) :
    w.sub w.bearerOrBasic (front ++ (token ++ rest)) = w.sub w.bearerOrBasic (front ++ (token' ++ rest)) := by
  refine Rule.replace_swallowed hlength
    (fun q _ hq before => w.bearer_same htoken htoken' hlength hlong hq before)
    (fun q before mark n _ hfound => w.bearer_runs_over htoken hfound) (fun q before mark hfound => ?_) hruns
  -- the credential ends with the token, and no other one begins there
  have hstops := (w.bearer_stops hfound).2
  rw [← List.length_append, ← List.append_assoc, List.drop_left] at hstops
  exact fun before before' => (w.bearer_none hstops before).trans (w.bearer_none hstops before').symm

/-- What is in front of a stretch of tokens is shown up to its last character, when nothing runs into it. -/
theorem bearer_keeps {stretch : List Char} (hstretch : ∀ c ∈ stretch, inToken c = true) (hne : token ≠ [])
    (hlong : rest = [] ∨ 6 ≤ token.length)
    (hreach : w.bearerOrBasic.reach w.isWord (token ++ rest) false 0 (front ++ stretch) = 0) :
    ∃ front', w.bearerOrBasic.shown w.isWord (token ++ rest) false 0 (front ++ stretch) = front' ++ stretch ∧
      front'.getLast? = front.getLast? := by
  have htokens : ∀ c ∈ stretch ++ token, inToken c = true := fun c hc =>
    (List.mem_append.mp hc).elim (hstretch c) (htoken c)
  have hpos : 0 < token.length := List.length_pos_iff.mpr hne
  have hover {q mark : List Char} {before : Bool} {n : ℕ}
      (h : w.bearerOrBasic before (q ++ (stretch ++ (token ++ rest))) = some (mark, q.length + n)) :
      stretch.length + token.length ≤ n := by
    rw [← List.append_assoc stretch] at h
    rw [← List.length_append]
    exact w.bearer_runs_over htokens h
  have hfirst : w.bearerOrBasic.reach w.isWord (stretch ++ (token ++ rest)) false 0 front = 0 := by
    by_contra hne
    obtain ⟨q, -, -, before, mark, hfound⟩ := Rule.reach_found (Nat.zero_le _) (Nat.pos_of_ne_zero hne)
    have hle := hover hfound
    rw [Rule.reach_append, Rule.reach_of_lt (by omega)] at hreach
    omega
  refine ⟨w.bearerOrBasic.shown w.isWord (stretch ++ (token ++ rest)) false 0 front, ?_, ?_⟩
  · have hself (before : Bool) : w.bearerOrBasic.shown w.isWord (token ++ rest) before 0 stretch =
      stretch := by
      refine Rule.shown_self fun q hq hqne before => ?_
      have hqpos : 0 < q.length := List.length_pos_iff.mpr hqne
      rw [← List.append_assoc]
      refine w.bearer_long (fun c hc => ?_) ?_ before
      · rcases List.mem_append.mp hc with hc | hc
        · exact not_space_of_inToken (hstretch c (hq.subset hc))
        · exact no_space htoken c hc
      · rw [List.length_append]
        exact hlong.imp_right fun hlong => by omega
    rw [Rule.shown_append, hfirst, hself]
  · refine Rule.last_shown (fun q _ before mark taken hfound => ?_) hfirst (.inr rfl)
    refine ⟨(w.bearer_stops hfound).1, ?_⟩
    rintro rfl
    have hle := @hover q mark before 0 hfound
    omega

end Tokens

/-! ### What the first pattern leaves behind a token -/

/-- What is shown of the text behind a token, when a scheme begins in the token or right behind it, and when
none does. -/
def shownBehind (begun : Bool) (rest : List Char) : List Char :=
  if begun then
    firstWord rest ++ (' ' :: redactedMark ++ w.bearerOrBasic.replace w.isWord false
      ((firstWord rest).length + (credential (behindWord rest)).getD 0) rest)
  else
    match rest with
    | [] => []
    | c :: cs => c :: w.bearerOrBasic.replace w.isWord (w.isWord c) 0 cs

theorem replace_taken_any {skip : ℕ} (h : 0 < skip) (before before' : Bool) (cs : List Char) :
    w.bearerOrBasic.replace w.isWord before skip cs = w.bearerOrBasic.replace w.isWord before' skip cs := by
  obtain ⟨n, rfl⟩ : ∃ n, skip = n + 1 := Nat.exists_eq_add_one.mpr h
  cases cs <;> rfl

theorem begins_credential {token rest : List Char} (htoken : ∀ c ∈ token, inToken c = true)
    (h : w.bearerOrBasic.begins w.isWord rest before token = true) : credential (behindWord rest) ≠ none := by
  have hfound {token : List Char} (htoken : ∀ c ∈ token, inToken c = true) {before : Bool}
      (h : (w.bearerOrBasic before (token ++ rest)).isSome = true) : credential (behindWord rest) ≠ none := by
    obtain ⟨found, hfound⟩ := Option.isSome_iff_exists.mp h
    obtain ⟨-, -, n, hn, -⟩ := w.bearer_some hfound
    rw [(firstWord_append (fun c hc => not_space_of_inToken (htoken c hc)) rest).2] at hn
    rw [hn]
    exact Option.some_ne_none n
  induction token generalizing before with
  | nil => exact @hfound [] htoken before h
  | cons c cs ih =>
    rw [Rule.begins, Bool.or_eq_true] at h
    rcases h with h | h
    · exact hfound htoken h
    · exact ih (fun d hd => htoken d (List.mem_cons_of_mem c hd)) h

theorem shownBehind_begun {rest : List Char} (h : credential (behindWord rest) = some n) :
    w.shownBehind true rest = firstWord rest ++ (' ' :: redactedMark ++
      w.bearerOrBasic.replace w.isWord false ((firstWord rest).length + n) rest) := by
  unfold shownBehind
  rw [if_pos rfl, h, Option.getD_some]

theorem replace_begun {token rest : List Char} (htoken : ∀ c ∈ token, inToken c = true) {before : Bool}
    {found : List Char × ℕ} (h : w.bearerOrBasic before (token ++ rest) = some found) :
    w.bearerOrBasic.replace w.isWord before 0 (token ++ rest) = token ++ w.shownBehind true rest := by
  obtain ⟨hmark, hscheme, n, hn, htaken⟩ := w.bearer_some h
  obtain ⟨hpos, -⟩ := w.bearer_stops h
  obtain ⟨hword, hbehind⟩ := firstWord_append (fun c hc => not_space_of_inToken (htoken c hc)) rest
  rw [hbehind] at hn
  obtain ⟨hn', -⟩ := credential_some hn
  have hne : token ++ rest ≠ [] := by
    intro hnil
    rw [hnil] at hscheme
    cases hscheme
  rw [hword, List.length_append] at htaken
  have hskip : token.length ≤ found.2 := by omega
  have hleft : found.2 - token.length = (firstWord rest).length + n := by omega
  have hlong : 0 < (firstWord rest).length + n := by omega
  rw [Rule.replace_taken hne hpos h, Rule.replace_skip hskip, hleft, w.replace_taken_any hlong _ false, hmark,
    hword, w.shownBehind_begun hn]
  simp only [List.append_assoc, List.cons_append]

/-- **The first pattern shows all of a token**, whatever it finds in it. -/
theorem replace_bearer {token rest : List Char} (htoken : ∀ c ∈ token, inToken c = true) (hne : token ≠ [])
    (before : Bool) : w.bearerOrBasic.replace w.isWord before 0 (token ++ rest) =
      token ++ w.shownBehind (w.bearerOrBasic.begins w.isWord rest before token) rest := by
  induction token generalizing before with
  | nil => exact absurd rfl hne
  | cons c cs ih =>
    rw [Rule.begins]
    cases hrule : w.bearerOrBasic before (c :: cs ++ rest) with
    | some found => exact w.replace_begun htoken hrule
    | none =>
      rw [List.cons_append] at hrule
      rw [Option.isSome_none, Bool.false_or, List.cons_append, Rule.replace_cons hrule]
      refine congrArg (c :: ·) ?_
      by_cases hcs : cs = []
      · subst hcs
        rw [List.nil_append, Rule.begins]
        cases hbehind : w.bearerOrBasic (w.isWord c) rest with
        | some found => exact @replace_begun w [] rest (List.forall_mem_nil _) _ found hbehind
        | none =>
          cases rest with
          | nil => rfl
          | cons d ds => exact Rule.replace_cons hbehind
      · exact ih (fun d hd => htoken d (List.mem_cons_of_mem c hd)) hcs (w.isWord c)

/-! ### Texts that look alike -/

/-- Two texts with the same characters of a token in front, and behind them characters that are words or not
alike. -/
inductive LooksAlike : List Char → List Char → Prop
  | nil : LooksAlike [] []
  | stop {c c' : Char} (hc : inToken c = false) (hc' : inToken c' = false) (hword : w.isWord c = w.isWord c')
      (cs cs' : List Char) : LooksAlike (c :: cs) (c' :: cs')
  | cons (c : Char) {cs cs' : List Char} (h : LooksAlike cs cs') : LooksAlike (c :: cs) (c :: cs')

variable {w}

theorem LooksAlike.append {cs' : List Char} (h : w.LooksAlike cs cs') (front : List Char) :
    w.LooksAlike (front ++ cs) (front ++ cs') := by
  induction front with
  | nil => exact h
  | cons c front ih => exact .cons c ih

theorem LooksAlike.of_front {front : List Char} (hmem : c ∈ front) (hc : inToken c = false)
    (cs cs' : List Char) : w.LooksAlike (front ++ cs) (front ++ cs') := by
  induction front with
  | nil => cases hmem
  | cons d front ih =>
    rcases List.mem_cons.mp hmem with rfl | hmem
    · exact .stop hc hc rfl _ _
    · exact .cons d (ih hmem)

theorem inToken_space {space : Char} (h : isSpace space = true) : inToken space = false := by
  by_contra hne
  rw [Bool.not_eq_false] at hne
  rw [not_space_of_inToken hne] at h
  cases h

theorem LooksAlike.marked {rest : List Char} {n : ℕ} (h : credential (behindWord rest) = some n)
    (behind : List Char) : w.LooksAlike rest (firstWord rest ++ (' ' :: redactedMark ++ behind)) := by
  obtain ⟨-, -, ⟨space, spaced, hspaced, hspace⟩, -⟩ := credential_some h
  have hword : w.isWord space = w.isWord ' ' := by rw [w.spaces space hspace, w.spaces ' ' (by decide)]
  have halike : w.LooksAlike (behindWord rest) (' ' :: redactedMark ++ behind) := by
    rw [hspaced]
    exact .stop (inToken_space hspace) (by decide) hword _ _
  have hrest := halike.append (firstWord rest)
  rwa [firstWord_append_behindWord] at hrest

theorem LooksAlike.replaced (cs : List Char) (before : Bool) :
    w.LooksAlike cs (w.bearerOrBasic.replace w.isWord before 0 cs) := by
  induction cs generalizing before with
  | nil => exact .nil
  | cons c cs ih =>
    cases hrule : w.bearerOrBasic before (c :: cs) with
    | none =>
      rw [Rule.replace_cons hrule]
      exact .cons c (ih (w.isWord c))
    | some found =>
      obtain ⟨hmark, -, n, hn, -⟩ := w.bearer_some hrule
      obtain ⟨hpos, -⟩ := w.bearer_stops hrule
      rw [Rule.replace_taken (List.cons_ne_nil c cs) hpos hrule, hmark, List.append_assoc]
      exact LooksAlike.marked hn _

theorem LooksAlike.shownBehind {token rest : List Char} (htoken : ∀ c ∈ token, inToken c = true)
    (before : Bool) :
    w.LooksAlike rest (w.shownBehind (w.bearerOrBasic.begins w.isWord rest before token) rest) := by
  unfold WordTable.shownBehind
  split
  · rename_i hbegins
    obtain ⟨n, hn⟩ := Option.ne_none_iff_exists'.mp (w.begins_credential htoken hbegins)
    exact LooksAlike.marked hn _
  · cases rest with
    | nil => exact .nil
    | cons c cs => exact .cons c (LooksAlike.replaced cs (w.isWord c))

end CountyFlow.Security.WordTable
