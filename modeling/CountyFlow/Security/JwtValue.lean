import CountyFlow.Security.Patterns

/-!
# `JWT_VALUE`

What the pattern finds in a token of three parts, and in what stands around it: one match takes all of the
token, or it ends in front of the end of it.
-/

namespace CountyFlow.Security.WordTable

open CountyFlow.Lib

variable {w : WordTable}

/-! ### The last part -/

variable {c : Char} {cs : List Char}

section LastPart

variable {n k : ℕ} {before : Bool} {part rest : List Char}

theorem lastPart_cons (hc : isToken c = true) (cs : List Char) : w.lastPart n before (c :: cs) =
    (w.lastPart (n + 1) (w.isWord c) cs).or (if 8 ≤ n ∧ w.border before (c :: cs) = true then some n
    else none) := by
  rw [lastPart, if_pos hc]

theorem lastPart_dot (rest : List Char) :
    w.lastPart n before ('.' :: rest) = if 8 ≤ n ∧ before = true then some n else none := by
  have hborder : w.border before ('.' :: rest) = before := by
    show (before != w.isWord '.') = before
    rw [isWord_dot]
    cases before <;> rfl
  rw [lastPart, if_neg (by decide), Option.none_or, hborder]

theorem lastPart_bounds (h : w.lastPart n before cs = some k) :
    ∃ m, k = n + m ∧ 8 ≤ k ∧ (∀ c ∈ cs.take m, isToken c = true) ∧
      w.border (wordBefore w.isWord before (cs.take m)) (cs.drop m) = true := by
  have hhere {cs : List Char} {n : ℕ} {before : Bool}
      (h : (if 8 ≤ n ∧ w.border before cs = true then some n else none) = some k) :
      ∃ m, k = n + m ∧ 8 ≤ k ∧ (∀ c ∈ cs.take m, isToken c = true) ∧
        w.border (wordBefore w.isWord before (cs.take m)) (cs.drop m) = true := by
    split at h
    · rename_i hend
      obtain rfl := Option.some.inj h
      exact ⟨0, rfl, hend.1, List.forall_mem_nil _, hend.2⟩
    · cases h
  induction cs generalizing n before with
  | nil => exact hhere h
  | cons c cs ih =>
    rw [lastPart] at h
    split at h
    · rename_i hc
      rcases Option.or_eq_some_iff.mp h with h | ⟨-, h⟩
      · obtain ⟨m, rfl, hlong, htokens, hborder⟩ := ih h
        exact ⟨m + 1, by omega, hlong, List.forall_mem_cons.mpr ⟨hc, htokens⟩, hborder⟩
      · exact hhere h
    · rw [Option.none_or] at h
      exact hhere h

/-- What a part finds in its own characters does not depend on what is behind it. -/
theorem lastPart_append (hpart : ∀ c ∈ part, isToken c = true) (n : ℕ) (before : Bool) :
    ∃ found, (∀ k ∈ found, k < n + part.length) ∧ ∀ rest, w.lastPart n before (part ++ rest) =
      (w.lastPart (n + part.length) (wordBefore w.isWord before part) rest).or found := by
  induction part generalizing n before with
  | nil => exact ⟨none, nofun, fun rest => (Option.or_none ..).symm⟩
  | cons c cs ih =>
    obtain ⟨found, hfound, hrest⟩ := ih (fun d hd => hpart d (List.mem_cons_of_mem c hd)) (n + 1) (w.isWord c)
    refine ⟨found.or (if 8 ≤ n ∧ w.border before (c :: cs) = true then some n else none), ?_, fun rest => ?_⟩
    · intro k hk
      rw [List.length_cons]
      rcases Option.or_eq_some_iff.mp hk with hk | ⟨-, hk⟩
      · have hlt := hfound k hk
        omega
      · split at hk
        · obtain rfl := Option.some.inj hk
          omega
        · cases hk
    · have hc := hpart c List.mem_cons_self
      rw [List.cons_append, lastPart_cons hc, hrest rest, Option.or_assoc, List.length_cons,
        Nat.add_right_comm, Nat.add_assoc n]
      rfl

/-- A border is found where a word ends in front of a dot. -/
theorem lastPart_word (hn : 8 ≤ n) (hpart : ∀ c ∈ part, isToken c = true) (rest : List Char) :
    w.lastPart n true (part ++ '.' :: rest) ≠ none := by
  induction part generalizing n with
  | nil =>
    rw [List.nil_append, lastPart_dot, if_pos ⟨hn, rfl⟩]
    exact Option.some_ne_none n
  | cons c cs ih =>
    rw [List.cons_append, lastPart_cons (hpart c List.mem_cons_self)]
    cases hword : w.isWord c with
    | true =>
      have hcs := @ih (n + 1) (by omega) fun d hd => hpart d (List.mem_cons_of_mem c hd)
      exact fun hnone => hcs (Option.or_eq_none_iff.mp hnone).1
    | false =>
      have hborder : w.border true (c :: (cs ++ '.' :: rest)) = true := by
        show (true != w.isWord c) = true
        rw [hword]
        rfl
      rw [if_pos ⟨hn, hborder⟩]
      exact fun hnone => Option.some_ne_none n (Option.or_eq_none_iff.mp hnone).2

/-- A part in front of a dot in which no border is found is made of hyphens, and looks like any other one. -/
theorem lastPart_hyphens (hpart : ∀ c ∈ part, isToken c = true) (hne : part ≠ [])
    (hlong : 8 ≤ n + part.length) (h : ∀ k, w.lastPart n before (part ++ '.' :: rest) = some k → k ≤ n) :
    w.lastPart n before (part ++ '.' :: rest) = if 8 ≤ n ∧ before = true then some n else none := by
  by_cases hn : 8 ≤ n
  · obtain ⟨c, cs, rfl⟩ := List.exists_cons_of_ne_nil hne
    rw [List.cons_append, lastPart_cons (hpart c List.mem_cons_self)] at h ⊢
    have hnone : w.lastPart (n + 1) (w.isWord c) (cs ++ '.' :: rest) = none := by
      cases hlater : w.lastPart (n + 1) (w.isWord c) (cs ++ '.' :: rest) with
      | none => rfl
      | some k =>
        rw [hlater] at h
        have hle := h k rfl
        obtain ⟨m, hm, -⟩ := lastPart_bounds hlater
        omega
    have hword : w.isWord c = false := by
      by_contra hword
      rw [Bool.not_eq_false] at hword
      rw [hword] at hnone
      exact lastPart_word (by omega) (fun d hd => hpart d (List.mem_cons_of_mem c hd)) rest hnone
    have hborder : w.border before (c :: (cs ++ '.' :: rest)) = before := by
      show (before != w.isWord c) = before
      rw [hword]
      cases before <;> rfl
    rw [hnone, Option.none_or, hborder]
  · rw [if_neg fun hand => hn hand.1]
    cases hfound : w.lastPart n before (part ++ '.' :: rest) with
    | none => rfl
    | some k =>
      have hle := h k hfound
      obtain ⟨m, hm, hlong, -⟩ := lastPart_bounds hfound
      omega

end LastPart

/-! ### Texts that look alike -/

variable {cs' : List Char}

theorem LooksAlike.head (h : w.LooksAlike cs cs') : cs.head?.any w.isWord = cs'.head?.any w.isWord := by
  cases h with
  | nil => rfl
  | stop hc hc' hword => exact hword
  | cons c h => rfl

theorem LooksAlike.border (h : w.LooksAlike cs cs') (before : Bool) :
    w.border before cs = w.border before cs' := congrArg (before != ·) h.head

theorem not_token (h : inToken c = false) : isToken c = false ∧ c ≠ '.' := by
  simpa [inToken] using h

theorem LooksAlike.lastPart (h : w.LooksAlike cs cs') (n : ℕ) (before : Bool) :
    w.lastPart n before cs = w.lastPart n before cs' := by
  induction h generalizing n before with
  | nil => rfl
  | stop hc hc' hword cs cs' =>
    rw [WordTable.lastPart, WordTable.lastPart, (LooksAlike.stop hc hc' hword cs cs').border,
      (not_token hc).1, (not_token hc').1]
    rfl
  | cons c h ih => rw [WordTable.lastPart, WordTable.lastPart, (LooksAlike.cons c h).border, ih]

theorem tokenPart_dot {part : List Char} (hpart : ∀ c ∈ part, isToken c = true) (rest : List Char) :
    tokenPart (part ++ '.' :: rest) = if 8 ≤ part.length then some (part.length + 1, rest) else none := by
  have htake : (part ++ '.' :: rest).takeWhile isToken = part := by
    rw [List.takeWhile_append_of_pos hpart, List.takeWhile_cons_of_neg (by decide), List.append_nil]
  have hdrop : (part ++ '.' :: rest).dropWhile isToken = '.' :: rest := by
    rw [List.dropWhile_append_of_pos hpart, List.dropWhile_cons_of_neg (by decide)]
  unfold tokenPart
  rw [hdrop, htake]
  rfl

theorem tokenPart_eq_some {rest : List Char} {n : ℕ} (h : tokenPart cs = some (n, rest)) :
    ∃ part, cs = part ++ '.' :: rest ∧ n = part.length + 1 ∧ 8 ≤ part.length ∧ ∀ c ∈ part,
    isToken c = true := by
  have hcs : cs.takeWhile isToken ++ cs.dropWhile isToken = cs := List.takeWhile_append_dropWhile
  unfold tokenPart at h
  split at h
  · rename_i rest' hdrop
    split at h
    · rename_i hlong
      cases h
      rw [hdrop] at hcs
      exact ⟨cs.takeWhile isToken, hcs.symm, rfl, hlong, fun c hc => List.mem_takeWhile_imp hc⟩
    · cases h
  · cases h

theorem LooksAlike.symm (h : w.LooksAlike cs cs') : w.LooksAlike cs' cs := by
  induction h with
  | nil => exact .nil
  | stop hc hc' hword cs cs' => exact .stop hc' hc hword.symm cs' cs
  | cons c h ih => exact .cons c ih

theorem LooksAlike.of_append {front : List Char} (hfront : ∀ c ∈ front, inToken c = true)
    (h : w.LooksAlike (front ++ cs) cs') : ∃ rest, cs' = front ++ rest ∧ w.LooksAlike cs rest := by
  induction front generalizing cs' with
  | nil => exact ⟨cs', rfl, h⟩
  | cons c front ih =>
    cases h with
    | stop hc hc' hword cs cs' =>
      rw [hfront c List.mem_cons_self] at hc
      cases hc
    | cons c h =>
      obtain ⟨rest, rfl, hrest⟩ := ih (fun d hd => hfront d (List.mem_cons_of_mem c hd)) h
      exact ⟨rest, rfl, hrest⟩

theorem inToken_of_isToken (h : isToken c = true) : inToken c = true := by
  rw [inToken, h, Bool.true_or]

theorem inToken_part {part : List Char} (h : ∀ c ∈ part, isToken c = true) :
    ∀ c ∈ part ++ ['.'], inToken c = true := by
  intro c hc
  rcases List.mem_append.mp hc with hc | hc
  · exact inToken_of_isToken (h c hc)
  · obtain rfl := List.mem_singleton.mp hc
    decide

theorem LooksAlike.tokenPart {rest : List Char} {n : ℕ} (h : w.LooksAlike cs cs')
    (hpart : tokenPart cs = some (n, rest)) :
    ∃ rest', tokenPart cs' = some (n, rest') ∧ w.LooksAlike rest rest' := by
  obtain ⟨part, rfl, rfl, hlong, htokens⟩ := tokenPart_eq_some hpart
  rw [List.append_cons] at h
  obtain ⟨rest', rfl, hrest⟩ := h.of_append (inToken_part htokens)
  refine ⟨rest', ?_, hrest⟩
  rw [← List.append_cons, tokenPart_dot htokens, if_pos hlong]

theorem jwt_eq_some {before : Bool} {mark : List Char} {taken : ℕ} :
    w.jwtValue before cs = some (mark, taken) ↔ w.border before cs = true ∧ mark = redactedMark ∧
      ∃ n cs' m cs'' k, tokenPart cs = some (n, cs') ∧ tokenPart cs' = some (m, cs'') ∧
        w.lastPart 0 false cs'' = some k ∧ taken = n + (m + k) := by
  constructor
  · intro h
    unfold jwtValue at h
    split at h
    · rename_i hborder
      obtain ⟨⟨n, cs'⟩, hheader, h⟩ := Option.bind_eq_some_iff.mp h
      obtain ⟨⟨m, cs''⟩, hpayload, h⟩ := Option.bind_eq_some_iff.mp h
      obtain ⟨k, hsignature, h⟩ := Option.map_eq_some_iff.mp h
      obtain ⟨rfl, rfl⟩ := Prod.mk.inj h
      exact ⟨hborder, rfl, n, cs', m, cs'', k, hheader, hpayload, hsignature, rfl⟩
    · cases h
  · rintro ⟨hborder, rfl, n, cs', m, cs'', k, hheader, hpayload, hsignature, rfl⟩
    unfold jwtValue
    rw [if_pos hborder, hheader, Option.bind_some, hpayload, Option.bind_some, hsignature]
    rfl

/-- **`JWT_VALUE` finds the same in texts that look alike.** -/
theorem LooksAlike.jwtValue (h : w.LooksAlike cs cs') (before : Bool) :
    w.jwtValue before cs = w.jwtValue before cs' := by
  have hfound {cs cs' : List Char} (h : w.LooksAlike cs cs') {mark : List Char} {taken : ℕ}
      (hcs : w.jwtValue before cs = some (mark, taken)) : w.jwtValue before cs' = some (mark, taken) := by
    obtain ⟨hborder, hmark, n, cs₁, m, cs₂, k, hheader, hpayload, hsignature, htaken⟩ := jwt_eq_some.mp hcs
    obtain ⟨cs₁', hheader', h₁⟩ := h.tokenPart hheader
    obtain ⟨cs₂', hpayload', h₂⟩ := h₁.tokenPart hpayload
    exact jwt_eq_some.mpr ⟨(h.border before) ▸ hborder, hmark, n, cs₁', m, cs₂', k, hheader', hpayload',
      (h₂.lastPart 0 false) ▸ hsignature, htaken⟩
  refine Option.ext fun found => ⟨fun hcs => hfound h hcs, fun hcs => hfound h.symm hcs⟩

/-- What `JWT_VALUE` takes is made of the characters of tokens, and a word begins or ends behind it. -/
theorem jwt_found {before : Bool} {mark : List Char} {taken : ℕ}
    (h : w.jwtValue before cs = some (mark, taken)) :
    mark = redactedMark ∧ 8 < taken ∧ (∀ c ∈ cs.take taken, inToken c = true) ∧
      w.border (wordBefore w.isWord before (cs.take taken)) (cs.drop taken) = true := by
  obtain ⟨-, hmark, n, cs₁, m, cs₂, k, hheader, hpayload, hsignature, rfl⟩ := jwt_eq_some.mp h
  obtain ⟨header, rfl, rfl, hlong, hheaders⟩ := tokenPart_eq_some hheader
  obtain ⟨payload, rfl, rfl, -, hpayloads⟩ := tokenPart_eq_some hpayload
  obtain ⟨m, rfl, -, htokens, hborder⟩ := lastPart_bounds hsignature
  have hcs : header ++ '.' :: (payload ++ '.' :: cs₂) = header ++ ['.'] ++ (payload ++ ['.']) ++ cs₂ := by
    simp
  have htaken : header.length + 1 + (payload.length + 1 + (0 + m)) =
      (header ++ ['.'] ++ (payload ++ ['.'])).length + m := by
    simp only [List.length_append, List.length_singleton]
    omega
  have hlast : '.' ∈ (header ++ ['.'] ++ (payload ++ ['.'])).getLast? := by
    rw [List.getLast?_append, List.getLast?_concat]
    rfl
  refine ⟨hmark, by omega, ?_⟩
  rw [hcs, htaken, List.take_length_add_append, List.drop_length_add_append]
  constructor
  · intro c hc
    rcases List.mem_append.mp hc with hc | hc
    · exact (List.mem_append.mp hc).elim (inToken_part hheaders c) (inToken_part hpayloads c)
    · exact inToken_of_isToken (htokens c hc)
  · have hdot := @wordBefore_of_getLast? _ _ _ w.isWord hlast before
    rw [isWord_dot] at hdot
    rw [wordBefore, List.foldl_append]
    rw [wordBefore] at hdot
    rw [hdot]
    exact hborder

/-! ### In front of a token -/

section Front

variable {front header header' rest rest' : List Char}

theorem token_or_dot (h : ∀ c ∈ cs, inToken c = true) : (∀ c ∈ cs, isToken c = true) ∨
    ∃ part rest, cs = part ++ '.' :: rest ∧ (∀ c ∈ part, isToken c = true) ∧ ∀ c ∈ rest,
    inToken c = true := by
  induction cs with
  | nil => exact .inl (List.forall_mem_nil _)
  | cons c cs ih =>
    have hcs := ih fun d hd => h d (List.mem_cons_of_mem c hd)
    by_cases hc : isToken c = true
    · rcases hcs with hcs | ⟨part, rest, rfl, hpart, hrest⟩
      · exact .inl (List.forall_mem_cons.mpr ⟨hc, hcs⟩)
      · exact .inr ⟨c :: part, rest, rfl, List.forall_mem_cons.mpr ⟨hc, hpart⟩, hrest⟩
    · have hdot : c = '.' := by
        have hin := h c List.mem_cons_self
        rw [inToken, Bool.or_eq_true] at hin
        exact of_decide_eq_true (hin.resolve_left hc)
      exact .inr ⟨[], cs, by
        rw [hdot]; rfl, List.forall_mem_nil _, fun d hd => h d (List.mem_cons_of_mem c hd)⟩

/-- A part that begins in front of another one goes up to the end of that one. -/
theorem tokenPart_front (hfront : ∀ c ∈ front, isToken c = true) (hheader : ∀ c ∈ header, isToken c = true)
    {n : ℕ} (h : tokenPart (front ++ (header ++ '.' :: rest)) = some (n, cs)) : front.length < n := by
  have hpart : ∀ c ∈ front ++ header, isToken c = true := fun c hc =>
    (List.mem_append.mp hc).elim (hfront c) (hheader c)
  rw [← List.append_assoc, tokenPart_dot hpart] at h
  split at h
  · obtain ⟨rfl, -⟩ := Prod.mk.inj (Option.some.inj h)
    rw [List.length_append]
    omega
  · cases h

/-- A last part that ends in front of another part does not depend on what that one is. -/
theorem lastPart_front (hfront : ∀ c ∈ front, inToken c = true) (hheader : ∀ c ∈ header, isToken c = true)
    (hheader' : ∀ c ∈ header', isToken c = true) (hlong : 8 ≤ header.length) (hlong' : 8 ≤ header'.length)
    (h : ∀ k, w.lastPart 0 false (front ++ (header ++ '.' :: rest)) = some k → k ≤ front.length)
    (h' : ∀ k, w.lastPart 0 false (front ++ (header' ++ '.' :: rest')) = some k → k ≤ front.length) :
    w.lastPart 0 false (front ++ (header ++ '.' :: rest)) =
      w.lastPart 0 false (front ++ (header' ++ '.' :: rest')) := by
  rcases token_or_dot hfront with hfront | ⟨part, behind, rfl, hpart, -⟩
  · obtain ⟨found, -, hparts⟩ := lastPart_append (w := w) hfront 0 false
    have hhyphens {header rest : List Char} (hheader : ∀ c ∈ header, isToken c = true)
      (hlong : 8 ≤ header.length)
        (h : ∀ k, w.lastPart 0 false (front ++ (header ++ '.' :: rest)) = some k → k ≤ front.length) :
        w.lastPart (0 + front.length) (wordBefore w.isWord false front) (header ++ '.' :: rest) =
          if 8 ≤ 0 + front.length ∧ wordBefore w.isWord false front = true then some (0 + front.length)
            else none := by
      rw [hparts] at h
      refine lastPart_hyphens hheader (List.ne_nil_of_length_pos (by omega)) (by omega) fun k hk => ?_
      rw [hk] at h
      have hle := h k rfl
      omega
    rw [hparts, hparts, hhyphens hheader hlong h, hhyphens hheader' hlong' h']
  · obtain ⟨found, -, hparts⟩ := lastPart_append (w := w) hpart 0 false
    simp only [List.append_assoc, List.cons_append, hparts, lastPart_dot]

theorem jwt_parts {payload : List Char} (hheader : ∀ c ∈ header, isToken c = true)
    (hpayload : ∀ c ∈ payload, isToken c = true) (before : Bool) (rest : List Char) :
    w.jwtValue before (header ++ '.' :: (payload ++ '.' :: rest)) =
      if w.border before (header ++ ['.']) = true ∧ 8 ≤ header.length ∧ 8 ≤ payload.length then
        (w.lastPart 0 false rest).map fun k => (redactedMark, header.length + 1 + (payload.length + 1 + k))
      else none := by
  have hborder : w.border before (header ++ '.' :: (payload ++ '.' :: rest)) =
    w.border before (header ++ ['.']) := by
    rw [List.append_cons, border_append w (List.append_ne_nil_of_right_ne_nil _ (List.cons_ne_nil _ _))]
  unfold jwtValue
  rw [hborder, tokenPart_dot hheader]
  split
  · rename_i hword
    split
    · rename_i hlong
      rw [Option.bind_some, tokenPart_dot hpayload]
      split
      · rename_i hlong'
        rw [if_pos ⟨hword, hlong, hlong'⟩, Option.bind_some]
      · rename_i hshort
        rw [if_neg fun hand => hshort hand.2.2, Option.bind_none]
    · rename_i hshort
      rw [if_neg fun hand => hshort hand.2.1, Option.bind_none]
  · rename_i hword
    rw [if_neg fun hand => hword hand.1]

/-- Where nothing is found of which the end is in a part, or behind it, the part makes no difference. -/
theorem jwt_front (hfront : ∀ c ∈ front, inToken c = true) (hheader : ∀ c ∈ header, isToken c = true)
    (hheader' : ∀ c ∈ header', isToken c = true) (hlong : 8 ≤ header.length) (hlong' : 8 ≤ header'.length)
    {before : Bool}
    (h : ∀ mark taken, w.jwtValue before (front ++ (header ++ '.' :: rest)) = some (mark, taken) →
      taken ≤ front.length)
    (h' : ∀ mark taken, w.jwtValue before (front ++ (header' ++ '.' :: rest')) = some (mark, taken) →
      taken ≤ front.length) :
    w.jwtValue before (front ++ (header ++ '.' :: rest)) =
      w.jwtValue before (front ++ (header' ++ '.' :: rest')) := by
  have hnone {header rest : List Char}
      (h : ∀ mark taken, w.jwtValue before (front ++ (header ++ '.' :: rest)) = some (mark, taken) →
        taken ≤ front.length)
      (hlong : ∀ n cs m cs' k, tokenPart (front ++ (header ++ '.' :: rest)) = some (n, cs) →
        tokenPart cs = some (m, cs') → front.length < n + (m + k)) :
      w.jwtValue before (front ++ (header ++ '.' :: rest)) = none := by
    by_contra hsome
    obtain ⟨⟨mark, taken⟩, hfound⟩ := Option.ne_none_iff_exists'.mp hsome
    have hle := h mark taken hfound
    obtain ⟨-, -, n, cs, m, cs', k, hn, hm, -, rfl⟩ := jwt_eq_some.mp hfound
    have hlt := hlong n cs m cs' k hn hm
    omega
  rcases token_or_dot hfront with hfront | ⟨part, behind, rfl, hpart, hbehind⟩
  · have hfirst {header rest : List Char} (hheader : ∀ c ∈ header, isToken c = true) (n cs m cs' k)
        (hn : tokenPart (front ++ (header ++ '.' :: rest)) = some (n, cs))
        (_ : tokenPart cs = some (m, cs')) :
        front.length < n + (m + k) := Nat.lt_add_right _ (tokenPart_front hfront hheader hn)
    rw [hnone h (hfirst hheader), hnone h' (hfirst hheader')]
  rcases token_or_dot hbehind with hbehind | ⟨part', behind, rfl, hpart', hbehind⟩
  · have hsecond {header rest : List Char} (hheader : ∀ c ∈ header, isToken c = true) (n cs m cs' k)
        (hn : tokenPart (part ++ '.' :: behind ++ (header ++ '.' :: rest)) = some (n, cs))
        (hm : tokenPart cs = some (m, cs')) : (part ++ '.' :: behind).length < n + (m + k) := by
      rw [List.append_assoc, List.cons_append, tokenPart_dot hpart] at hn
      split at hn
      · obtain ⟨rfl, rfl⟩ := Prod.mk.inj (Option.some.inj hn)
        have hlt := tokenPart_front hbehind hheader hm
        rw [List.length_append, List.length_cons]
        omega
      · cases hn
    rw [hnone h (hsecond hheader), hnone h' (hsecond hheader')]
  · simp only [List.append_assoc, List.cons_append, jwt_parts hpart hpart'] at h h' ⊢
    split
    · rename_i hcond
      simp only [if_pos hcond] at h h'
      have hshort {cs : List Char} (h : ∀ mark taken, ((w.lastPart 0 false cs).map fun k =>
          (redactedMark, part.length + 1 + (part'.length + 1 + k))) = some (mark, taken) →
            taken ≤ (part ++ '.' :: (part' ++ '.' :: behind)).length) (k : ℕ)
          (hk : w.lastPart 0 false cs = some k) : k ≤ behind.length := by
        have hle := h redactedMark _ (by rw [hk]; rfl)
        simp only [List.length_append, List.length_cons] at hle
        omega
      rw [lastPart_front hbehind hheader hheader' hlong hlong' (hshort h) (hshort h')]
    · rfl

end Front

/-- In front of two matches `JWT_VALUE` finds the same, when it finds nothing that runs into one of them. -/
theorem jwt_short {q : List Char} {before before' : Bool} {found found' : List Char × ℕ}
    (hfound : w.jwtValue before cs = some found) (hfound' : w.jwtValue before cs' = some found')
    (hq : ∀ c ∈ q, inToken c = true)
    (h : ∀ mark taken, w.jwtValue before' (q ++ cs) = some (mark, taken) → taken ≤ q.length)
    (h' : ∀ mark taken, w.jwtValue before' (q ++ cs') = some (mark, taken) → taken ≤ q.length) :
    w.jwtValue before' (q ++ cs) = w.jwtValue before' (q ++ cs') := by
  obtain ⟨-, -, n, cs₁, -, -, -, hheader, -⟩ := jwt_eq_some.mp hfound
  obtain ⟨-, -, n', cs₁', -, -, -, hheader', -⟩ := jwt_eq_some.mp hfound'
  obtain ⟨header, rfl, -, hlong, hheaders⟩ := tokenPart_eq_some hheader
  obtain ⟨header', rfl, -, hlong', hheaders'⟩ := tokenPart_eq_some hheader'
  exact jwt_front hq hheaders hheaders' hlong hlong' h h'

/-! ### Tokens of three parts -/

/-- Three parts, as `JWT_VALUE` describes them. -/
def JwtShaped (token : List Char) : Prop :=
  ∃ header payload signature, token = header ++ '.' :: (payload ++ '.' :: signature) ∧
    ∀ part ∈ [header, payload, signature], 8 ≤ part.length ∧ ∀ c ∈ part, isToken c = true

variable {token : List Char}

theorem JwtShaped.chars (h : JwtShaped token) : ∀ c ∈ token, inToken c = true := by
  obtain ⟨header, payload, signature, rfl, hparts⟩ := h
  have hpart (part : List Char) (hmem : part ∈ [header, payload, signature]) : ∀ c ∈ part, inToken c = true :=
    fun c hc => inToken_of_isToken ((hparts part hmem).2 c hc)
  intro c hc
  simp only [List.mem_append, List.mem_cons] at hc
  rcases hc with hc | rfl | hc | rfl | hc
  · exact hpart header (by simp) c hc
  · decide
  · exact hpart payload (by simp) c hc
  · decide
  · exact hpart signature (by simp) c hc

theorem JwtShaped.long (h : JwtShaped token) : 15 ≤ token.length := by
  obtain ⟨header, payload, signature, rfl, hparts⟩ := h
  have hheader := (hparts header (by simp)).1
  have hpayload := (hparts payload (by simp)).1
  simp only [List.length_append, List.length_cons]
  omega

end CountyFlow.Security.WordTable
