import CountyFlow.Security.Patterns

/-!
# `CREDENTIAL_URL` and `QUERY_SECRET`

A password of a URL and the value of a query secret that begin in front of a token go on behind it, and the
characters of the token do not matter.
-/

namespace CountyFlow.Security.WordTable

open CountyFlow.Lib
open CountyFlow.Memory (ignoreCase)
open CountyFlow.Worker.Db (isSpace)

variable {w : WordTable} {token token' front rest : List Char}

variable {letters cs : List Char} {last : Char}

theorem spells_close (h : spells (letters ++ [last]) cs = true) :
    ∃ c, cs[letters.length]? = some c ∧ c ∈ ignoreCase last := by
  induction letters generalizing cs with
  | nil =>
    cases cs with
    | nil => cases h
    | cons c cs =>
      rw [List.nil_append, spells, Bool.and_eq_true] at h
      exact ⟨c, rfl, of_decide_eq_true h.1⟩
  | cons letter letters ih =>
    cases cs with
    | nil => cases h
    | cons c cs =>
      rw [List.cons_append, spells, Bool.and_eq_true] at h
      exact ih h.2

/-- Letters that no token ends are spelled in front of the token. -/
theorem spells_in_front (hlast : (ignoreCase last).all (fun c => !inToken c) = true)
    (htoken : ∀ c ∈ token, inToken c = true) (hlong : rest = [] ∨ letters.length < token.length)
    (h : spells (letters ++ [last]) (front ++ (token ++ rest)) = true) : letters.length < front.length := by
  by_contra hle
  rw [not_lt] at hle
  obtain ⟨c, hc, hcase⟩ := spells_close h
  rw [List.getElem?_append_right hle] at hc
  have hmem : c ∈ token := by
    rcases hlong with rfl | hlong
    · rw [List.append_nil] at hc
      exact List.mem_of_getElem? hc
    · rw [List.getElem?_append_left (by omega)] at hc
      exact List.mem_of_getElem? hc
  have hout := List.all_eq_true.mp hlast c hcase
  rw [htoken c hmem] at hout
  cases hout

theorem findSome?_congr {β γ : Type} {f g : β → Option γ} {alternatives : List β}
    (h : ∀ x ∈ alternatives, f x = g x) : alternatives.findSome? f = alternatives.findSome? g := by
  induction alternatives with
  | nil => rfl
  | cons x xs ih =>
    rw [List.findSome?_cons, List.findSome?_cons, h x List.mem_cons_self,
      ih fun y hy => h y (List.mem_cons_of_mem x hy)]

/-- What spells some letters first finds the same in front of two tokens. -/
theorem spelled_same {found : List Char → Option (List Char × ℕ)}
    (hlast : (ignoreCase last).all (fun c => !inToken c) = true) (hshort : letters.length < 15)
    (htoken : ∀ c ∈ token, inToken c = true) (htoken' : ∀ c ∈ token', inToken c = true)
    (hlength : token.length = token'.length) (hlong : rest = [] ∨ 15 ≤ token.length)
    (hsame : letters.length < front.length → found (front ++ (token ++ rest)) =
      found (front ++ (token' ++ rest))) :
    (if spells (letters ++ [last]) (front ++ (token ++ rest)) = true then found (front ++ (token ++ rest))
      else none) =
      if spells (letters ++ [last]) (front ++ (token' ++ rest)) = true then found (front ++ (token' ++ rest))
      else none := by
  have hspelled {token : List Char} (htoken : ∀ c ∈ token, inToken c = true)
      (hlong : rest = [] ∨ 15 ≤ token.length) (hlt : ¬ letters.length < front.length) :
      ¬ spells (letters ++ [last]) (front ++ (token ++ rest)) = true := fun h =>
    hlt (spells_in_front hlast htoken (hlong.imp_right fun hlong => by omega) h)
  by_cases hlt : letters.length < front.length
  · have hle : (letters ++ [last]).length ≤ front.length := by
      rw [List.length_append, List.length_singleton]
      exact hlt
    rw [spells_front hle, spells_front hle, hsame hlt]
  · rw [if_neg (hspelled htoken hlong hlt), if_neg (hspelled htoken' (hlength ▸ hlong) hlt)]

/-! ### `CREDENTIAL_URL` -/

/-- What the characters of tokens are to a URL. -/
theorem url_of_inToken {c : Char} (h : inToken c = true) :
    inUser c = true ∧ inPassword c = true ∧ c ≠ ':' ∧ c ≠ '@' := by
  have hspace := not_space_of_inToken h
  have hne {d : Char} (hd : inToken d = false) : c ≠ d := by
    rintro rfl
    rw [h] at hd
    cases hd
  have hslash : c ≠ '/' := hne (by decide)
  have hat : c ≠ '@' := hne (by decide)
  have hcolon : c ≠ ':' := hne (by decide)
  exact ⟨by simp [inUser, hspace, hslash, hat, hcolon], by simp [inPassword, hspace, hslash, hat],
    hcolon, hat⟩

/-- Two characters that a URL takes for the same. -/
def SameInUrl (c c' : Char) : Prop := c = c' ∨ inToken c = true ∧ inToken c' = true

theorem sameInUrl_tokens (htoken : ∀ c ∈ token, inToken c = true) (htoken' : ∀ c ∈ token', inToken c = true)
    (hlength : token.length = token'.length) (front rest : List Char) :
    List.Forall₂ SameInUrl (front ++ (token ++ rest)) (front ++ (token' ++ rest)) := by
  have hself (cs : List Char) : List.Forall₂ SameInUrl cs cs := List.forall₂_same.mpr fun _ _ => .inl rfl
  refine List.rel_append (hself front) (List.rel_append (List.forall₂_iff_get.mpr ⟨hlength, ?_⟩) (hself rest))
  exact fun i hi hi' => .inr ⟨htoken _ (List.get_mem token ⟨i, hi⟩), htoken' _ (List.get_mem token' ⟨i, hi'⟩)⟩

theorem forall₂_append {R : Char → Char → Prop} {ds cs' : List Char} (h : List.Forall₂ R (cs ++ ds) cs') :
    ∃ front rest, cs' = front ++ rest ∧ List.Forall₂ R cs front ∧ List.Forall₂ R ds rest := by
  induction cs generalizing cs' with
  | nil => exact ⟨[], cs', rfl, .nil, h⟩
  | cons c cs ih =>
    cases h with
    | cons hc h =>
      obtain ⟨front, rest, rfl, hfront, hrest⟩ := ih h
      exact ⟨_ :: front, rest, rfl, .cons hc hfront, hrest⟩

variable {n : ℕ}

theorem userInfo_eq_some : userInfo cs = some n ↔ ∃ user password rest,
    cs = user ++ ':' :: (password ++ '@' :: rest) ∧ user ≠ [] ∧ password ≠ [] ∧
    (∀ c ∈ user, inUser c = true) ∧
      (∀ c ∈ password, inPassword c = true) ∧ n = user.length + 1 + (password.length + 1) := by
  constructor
  · intro h
    have hcs : cs.takeWhile inUser ++ cs.dropWhile inUser = cs := List.takeWhile_append_dropWhile
    unfold userInfo at h
    split at h
    · rename_i behind hdrop
      have hbehind : behind.takeWhile inPassword ++ behind.dropWhile inPassword = behind :=
        List.takeWhile_append_dropWhile
      split at h
      · rename_i rest hdrop'
        split at h
        · cases h
        · rename_i hne
          rw [not_or] at hne
          rw [hdrop'] at hbehind
          rw [hdrop, ← hbehind] at hcs
          exact ⟨_, _, rest, hcs.symm, hne.1, hne.2, fun c hc => List.mem_takeWhile_imp hc,
            fun c hc => List.mem_takeWhile_imp hc, (Option.some.inj h).symm⟩
      · cases h
    · cases h
  · rintro ⟨user, password, rest, rfl, huser, hpassword, husers, hpasswords, rfl⟩
    have hsplit {p : Char → Bool} {part : List Char} (hpart : ∀ c ∈ part, p c = true) {c : Char}
        (hc : p c = false) (rest : List Char) :
        (part ++ c :: rest).takeWhile p = part ∧ (part ++ c :: rest).dropWhile p = c :: rest := by
      rw [List.takeWhile_append_of_pos hpart, List.dropWhile_append_of_pos hpart,
        List.takeWhile_cons_of_neg (by simp [hc]), List.dropWhile_cons_of_neg (by simp [hc]), List.append_nil]
      exact ⟨rfl, rfl⟩
    obtain ⟨htake, hdrop⟩ := hsplit husers (c := ':') (by decide) (password ++ '@' :: rest)
    obtain ⟨htake', hdrop'⟩ := hsplit hpasswords (c := '@') (by decide) rest
    simp only [userInfo, htake, hdrop, htake', hdrop', huser, hpassword, or_self, if_false]

theorem userInfo_same {cs' : List Char} (h : List.Forall₂ SameInUrl cs cs') : userInfo cs = userInfo cs' := by
  have hfixed {c d : Char} (hc : inToken c = false) (h : SameInUrl c d) : d = c := by
    rcases h with rfl | ⟨hin, -⟩
    · rfl
    · rw [hin] at hc
      cases hc
  have hall {p : Char → Bool} (hp : ∀ c, inToken c = true → p c = true) {part part' : List Char}
      (h : List.Forall₂ SameInUrl part part') (hpart : ∀ c ∈ part, p c = true) : ∀ c ∈ part', p c = true := by
    induction h with
    | nil => exact List.forall_mem_nil _
    | @cons c d cs ds hc h ih =>
      obtain ⟨hfirst, hcs⟩ := List.forall_mem_cons.mp hpart
      refine List.forall_mem_cons.mpr ⟨?_, ih hcs⟩
      rcases hc with rfl | ⟨-, hd⟩
      · exact hfirst
      · exact hp d hd
  have hfound {cs cs' : List Char} (h : List.Forall₂ SameInUrl cs cs') {n : ℕ} (hcs : userInfo cs = some n) :
      userInfo cs' = some n := by
    obtain ⟨user, password, rest, rfl, huser, hpassword, husers, hpasswords, rfl⟩ := userInfo_eq_some.mp hcs
    obtain ⟨user', behind, rfl, hu, hbehind⟩ := forall₂_append h
    obtain ⟨colon, behind', hcolon, hbehind', rfl⟩ := List.forall₂_cons_left_iff.mp hbehind
    obtain ⟨password', behind, rfl, hp, hbehind⟩ := forall₂_append hbehind'
    obtain ⟨ending, rest', hend, -, rfl⟩ := List.forall₂_cons_left_iff.mp hbehind
    obtain rfl := hfixed (by decide) hcolon
    obtain rfl := hfixed (by decide) hend
    have hne {part part' : List Char} (h : List.Forall₂ SameInUrl part part') (hne : part ≠ []) :
      part' ≠ [] :=
      fun hnil => hne (List.forall₂_nil_right_iff.mp (hnil ▸ h))
    exact userInfo_eq_some.mpr ⟨user', password', rest', rfl, hne hu huser, hne hp hpassword,
      hall (fun c hc => (url_of_inToken hc).1) hu husers,
      hall (fun c hc => (url_of_inToken hc).2.1) hp hpasswords, by rw [hu.length_eq, hp.length_eq]⟩
  have hsymm : List.Forall₂ SameInUrl cs' cs :=
    (h.imp fun c c' hc => (hc.imp Eq.symm And.symm : SameInUrl c' c)).flip
  exact Option.ext fun n => ⟨hfound h, hfound hsymm⟩

variable {before : Bool} {mark : List Char}

section Around

variable (htoken : ∀ c ∈ token, inToken c = true)

include htoken

theorem url_same (htoken' : ∀ c ∈ token', inToken c = true) (hlength : token.length = token'.length)
    (hlong : rest = [] ∨ 15 ≤ token.length) (before : Bool) :
    credentialUrl before (front ++ (token ++ rest)) = credentialUrl before (front ++ (token' ++ rest)) := by
  have hshort : ∀ scheme ∈ urlSchemes, (scheme ++ [':', '/']).length < 15 := by decide
  refine findSome?_congr fun scheme hscheme => ?_
  have hletters : scheme ++ [':', '/', '/'] = scheme ++ [':', '/'] ++ ['/'] := by simp
  rw [hletters]
  refine @spelled_same token token' front rest (scheme ++ [':', '/']) '/'
    (fun cs => (userInfo (cs.drop (scheme.length + 3))).map fun taken =>
      (cs.take scheme.length ++ ([':', '/', '/'] ++ redactedMark ++ ['@']), scheme.length + 3 + taken))
    (by decide) (hshort scheme hscheme) htoken htoken' hlength hlong fun hlt => ?_
  have hlt : scheme.length + 3 ≤ front.length := by
    rw [List.length_append] at hlt
    exact hlt
  have hinfo := userInfo_same (sameInUrl_tokens htoken htoken' hlength (front.drop (scheme.length + 3)) rest)
  have hle : scheme.length ≤ front.length := by omega
  simp only [List.drop_append_of_le_length hlt, List.take_append_of_le_length hle, hinfo]

/-- A password of a URL that begins in front of a token ends behind it. -/
theorem url_runs_over (hpos : 0 < n)
    (h : credentialUrl before (front ++ (token ++ rest)) = some (mark, front.length + n)) :
    token.length ≤ n := by
  obtain ⟨scheme, -, hfound⟩ := List.exists_of_findSome?_eq_some h
  split at hfound
  · obtain ⟨info, hinfo, hfound⟩ := Option.map_eq_some_iff.mp hfound
    obtain ⟨user, password, behind, hdrop, -, -, -, -, rfl⟩ := userInfo_eq_some.mp hinfo
    have htaken := (Prod.mk.inj hfound).2
    by_contra hlt
    have hat : (front ++ (token ++ rest))[scheme.length + 3 + (user.length + (1 + password.length))]? =
      some '@' := by
      rw [← List.getElem?_drop, hdrop, List.getElem?_append_right (Nat.le_add_right _ _),
        Nat.add_sub_cancel_left,
        Nat.add_comm 1, List.getElem?_cons_succ, List.getElem?_append_right le_rfl, Nat.sub_self]
      rfl
    have hindex : scheme.length + 3 + (user.length + (1 + password.length)) = front.length + (n - 1) := by
      omega
    rw [hindex, List.getElem?_append_right (Nat.le_add_right _ _), Nat.add_sub_cancel_left,
      List.getElem?_append_left (by omega)] at hat
    exact (url_of_inToken (htoken _ (List.mem_of_getElem? hat))).2.2.2 rfl
  · cases hfound

/-- **A password of a URL that runs into a token hides it.** -/
theorem url_swallows (htoken' : ∀ c ∈ token', inToken c = true) (hlength : token.length = token'.length)
    (hlong : rest = [] ∨ 15 ≤ token.length)
    (hruns : 0 < Rule.reach w.isWord credentialUrl (token ++ rest) false 0 front) :
    w.sub credentialUrl (front ++ (token ++ rest)) = w.sub credentialUrl (front ++ (token' ++ rest)) :=
  Rule.replace_swallowed hlength (fun _ _ _ before => url_same htoken htoken' hlength hlong before)
    (fun _ _ _ _ hpos hfound => url_runs_over htoken hpos hfound) (fun _ _ _ _ _ _ => rfl) hruns

end Around

/-! ### `QUERY_SECRET` -/

theorem inValue_of_inToken {c : Char} (h : inToken c = true) : inValue c = true := by
  have hspace := not_space_of_inToken h
  have hne {d : Char} (hd : inToken d = false) : c ≠ d := by
    rintro rfl
    rw [h] at hd
    cases hd
  simp [inValue, hspace, hne (show inToken '&' = false by decide), hne (show inToken '"' = false by decide),
    hne (show inToken '\'' = false by decide)]

section Around

variable (htoken : ∀ c ∈ token, inToken c = true)

include htoken

theorem query_same (htoken' : ∀ c ∈ token', inToken c = true) (hlength : token.length = token'.length)
    (hlong : rest = [] ∨ 15 ≤ token.length) (before : Bool) :
    querySecret before (front ++ (token ++ rest)) = querySecret before (front ++ (token' ++ rest)) := by
  have hshort : ∀ key ∈ secretKeys, key.length < 15 := by decide
  refine findSome?_congr fun key hkey => ?_
  refine @spelled_same token token' front rest key '='
    (fun cs => if (cs.drop (key.length + 1)).takeWhile inValue = [] then none else
      some (cs.take key.length ++ '=' :: redactedMark,
        key.length + 1 + ((cs.drop (key.length + 1)).takeWhile inValue).length))
    (by decide) (hshort key hkey) htoken htoken' hlength hlong fun hlt => ?_
  have hvalue : ((front.drop (key.length + 1) ++ (token ++ rest)).takeWhile inValue).length =
      ((front.drop (key.length + 1) ++ (token' ++ rest)).takeWhile inValue).length := by
    refine (takeWhile_same (R := SameInUrl) (p := inValue) (fun c c' hc => ?_)
      (sameInUrl_tokens htoken htoken' hlength (front.drop (key.length + 1)) rest)).1
    rcases hc with rfl | ⟨hc, hc'⟩
    · rfl
    · rw [inValue_of_inToken hc, inValue_of_inToken hc']
  simp only [List.drop_append_of_le_length (show key.length + 1 ≤ front.length by omega),
    List.take_append_of_le_length hlt.le, ← List.length_eq_zero_iff, hvalue]

/-- The value of a query secret that begins in front of a token goes on behind it. -/
theorem query_runs_over
    (h : querySecret before (front ++ (token ++ rest)) = some (mark, front.length + n)) :
    token.length ≤ n := by
  obtain ⟨key, -, hfound⟩ := List.exists_of_findSome?_eq_some h
  split at hfound
  · by_contra hlt
    rw [not_le] at hlt
    have htaken : key.length + 1 +
        (((front ++ (token ++ rest)).drop (key.length + 1)).takeWhile inValue).length = front.length + n := by
      simp only at hfound
      split at hfound
      · cases hfound
      · exact (Prod.mk.inj (Option.some.inj hfound)).2
    have hnext := List.head?_dropWhile_not inValue ((front ++ (token ++ rest)).drop (key.length + 1))
    rw [← drop_length_takeWhile, List.drop_drop, htaken, List.drop_length_add_append,
      List.drop_append_of_le_length hlt.le, List.drop_eq_getElem_cons hlt, List.cons_append,
      List.head?_cons] at hnext
    have hvalue := inValue_of_inToken (htoken _ (List.getElem_mem hlt))
    exact absurd hvalue (ne_true_of_eq_false hnext)
  · cases hfound

/-- **The value of a query secret that runs into a token hides it.** -/
theorem query_swallows (htoken' : ∀ c ∈ token', inToken c = true) (hlength : token.length = token'.length)
    (hlong : rest = [] ∨ 15 ≤ token.length)
    (hruns : 0 < Rule.reach w.isWord querySecret (token ++ rest) false 0 front) :
    w.sub querySecret (front ++ (token ++ rest)) = w.sub querySecret (front ++ (token' ++ rest)) :=
  Rule.replace_swallowed hlength (fun _ _ _ before => query_same htoken htoken' hlength hlong before)
    (fun _ _ _ _ _ hfound => query_runs_over htoken hfound) (fun _ _ _ _ _ _ => rfl) hruns

end Around

end CountyFlow.Security.WordTable
