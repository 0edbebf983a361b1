import CountyFlow.Security.JwtValue
import CountyFlow.Security.UrlQuery

/-!
# What a redacted value does not tell

Two values of one shape that differ in nothing but secrets are redacted, and the results are compared.  The
cut at the maximum length is made before the patterns look at a text, and a token that it goes through need
not be one of three parts any more.
-/

namespace CountyFlow.Security

open CountyFlow.Lib
open CountyFlow.Worker.Db (isSpace)
open WordTable SensitiveDataRedactor

variable (w : WordTable)

/-- Two tokens of three parts and of one length. -/
structure TokenTwins (token token' : List Char) : Prop where
  shaped : JwtShaped token
  shaped' : JwtShaped token'
  length : token.length = token'.length

/-- What a pattern finds in the front of a text runs into the rest. -/
def RunsInto (rule : Rule Char) (front rest : List Char) : Prop := 0 < rule.reach w.isWord rest false 0 front

/-- `JWT_VALUE`, which is searched through the whole text, takes just the token. -/
def Seen (front token rest : List Char) : Prop :=
  ¬ RunsInto w w.jwtValue front (token ++ rest) ∧
    ∃ mark, w.jwtValue (wordBefore w.isWord false front) (token ++ rest) = some (mark, token.length)

/-- A match of `BEARER_OR_BASIC` begins in a token, or right behind it. -/
def begun (front token rest : List Char) : Bool :=
  w.bearerOrBasic.begins w.isWord rest (wordBefore w.isWord false front) token

/-- No match of some patterns begins anywhere in a text. -/
def Quiet (rules : List (Rule Char)) (cs : List Char) : Prop :=
  ∀ rule ∈ rules, rule.begins w.isWord [] false cs = false

/-- Patterns find nothing in two texts, and the next one runs into the tokens in them. -/
def TakenBy (rules : List (Rule Char)) (rule : Rule Char) (front token token' rest : List Char) : Prop :=
  Quiet w rules (front ++ (token ++ rest)) ∧ Quiet w rules (front ++ (token' ++ rest)) ∧
    RunsInto w rule front (token ++ rest)

def KeptHidden (front token token' kept : List Char) : Prop :=
  token = token' ∨ TakenBy w [] w.bearerOrBasic front token token' kept ∨
    TakenBy w [w.bearerOrBasic, w.jwtValue] credentialUrl front token token' kept ∨
    TakenBy w [w.bearerOrBasic, w.jwtValue, credentialUrl] querySecret front token token' kept ∨
    Seen w front token kept ∧ Seen w front token' kept ∧ begun w front token kept = begun w front token' kept

/-- Tokens that are hidden, where so much of a text is left from the token on. -/
def HiddenAt (left : ℕ) (front token token' rest : List Char) : Prop :=
  KeptHidden w front (token.take left) (token'.take left) (rest.take (left - token.length))

/-! ### The pieces of a text -/

section Pieces

variable {w} {front stretch token token' rest : List Char}

theorem exists_stretch (front : List Char) : ∃ front' stretch, front = front' ++ stretch ∧
    (∀ c ∈ stretch, inToken c = true) ∧ ∀ c ∈ front'.getLast?, inToken c = false := by
  induction front using List.reverseRecOn with
  | nil => exact ⟨[], [], rfl, List.forall_mem_nil _, nofun⟩
  | append_singleton cs c ih =>
    by_cases hc : inToken c = true
    · obtain ⟨front', stretch, rfl, hstretch, hfront⟩ := ih
      refine ⟨front', stretch ++ [c], List.append_assoc .., fun d hd => ?_, hfront⟩
      rcases List.mem_append.mp hd with hd | hd
      · exact hstretch d hd
      · obtain rfl := List.mem_singleton.mp hd
        exact hc
    · refine ⟨cs ++ [c], [], (List.append_nil _).symm, List.forall_mem_nil _, fun d hd => ?_⟩
      rw [List.getLast?_concat] at hd
      obtain rfl := Option.some.inj hd
      exact (Bool.not_eq_true _).mp hc

theorem wordBefore_of_last {cs cs' : List Char} (h : cs.getLast? = cs'.getLast?) (before : Bool) :
    wordBefore w.isWord before cs = wordBefore w.isWord before cs' := by
  cases hlast : cs.getLast? with
  | none => rw [List.getLast?_eq_none_iff.mp hlast, List.getLast?_eq_none_iff.mp (h.symm.trans hlast)]
  | some c => rw [wordBefore_of_getLast? hlast, wordBefore_of_getLast? (h.symm.trans hlast)]

/-- A match of `JWT_VALUE` does not go beyond a character that no token has. -/
theorem jwt_stays (hfront : ∀ c ∈ front.getLast?, inToken c = false) (rest : List Char) :
    w.jwtValue.reach w.isWord rest false 0 front = 0 := by
  by_contra hruns
  obtain ⟨q, ⟨behind, rfl⟩, hne, before, mark, hfound⟩ :=
    Rule.reach_found (Nat.zero_le _) (Nat.pos_of_ne_zero hruns)
  have hlast := List.getLast?_eq_some_getLast hne
  have hmem : q.getLast hne ∈ (q ++ rest).take
      (q.length + w.jwtValue.reach w.isWord rest false 0 (behind ++ q)) := by
    rw [List.take_length_add_append]
    exact List.mem_append_left _ (List.getLast_mem hne)
  have hin := (jwt_found hfound).2.2.1 _ hmem
  rw [hfront (q.getLast hne) (by rw [List.getLast?_append, hlast]; rfl)] at hin
  cases hin

/-- In front of such a character `JWT_VALUE` finds the same, whatever is behind it. -/
theorem replace_jwt_append (hfront : ∀ c ∈ front.getLast?, inToken c = false) (rest rest' : List Char) :
    ∃ shown, ∀ cs ∈ [rest, rest'], w.sub w.jwtValue (front ++ cs) =
      shown ++ w.jwtValue.replace w.isWord (wordBefore w.isWord false front) 0 cs := by
  have hreplace (rest : List Char) : w.sub w.jwtValue (front ++ rest) =
      w.jwtValue.shown w.isWord rest false 0 front ++
        w.jwtValue.replace w.isWord (wordBefore w.isWord false front) 0 rest := by
    show w.jwtValue.replace w.isWord false 0 (front ++ rest) = _
    rw [Rule.replace_append, jwt_stays hfront]
  have hshown : w.jwtValue.shown w.isWord rest false 0 front = w.jwtValue.shown w.isWord rest' false 0
    front := by
    refine (Rule.shown_same fun q hq hne before => LooksAlike.jwtValue ?_ before).1
    obtain ⟨behind, rfl⟩ := hq
    have hlast := List.getLast?_eq_some_getLast hne
    exact .of_front (List.getLast_mem hne) (hfront _ (by rw [List.getLast?_append, hlast]; rfl)) rest rest'
  refine ⟨w.jwtValue.shown w.isWord rest false 0 front, fun cs hcs => ?_⟩
  rcases List.mem_cons.mp hcs with rfl | hcs
  · exact hreplace cs
  · obtain rfl := List.mem_singleton.mp hcs
    rw [hreplace, hshown]

/-- What is behind a token that is seen may be anything that looks alike. -/
theorem Seen.behind (hfront : ∀ c ∈ front.getLast?, inToken c = false)
    (h : Seen w (front ++ stretch) token rest) {rest' : List Char} (hrest : w.LooksAlike rest rest') :
    w.jwtValue.reach w.isWord (token ++ rest') (wordBefore w.isWord false front) 0 stretch = 0 ∧
      w.jwtValue (wordBefore w.isWord (wordBefore w.isWord false front) stretch) (token ++ rest') =
        some (redactedMark, token.length) := by
  obtain ⟨hruns, mark, hfound⟩ := h
  constructor
  · have hreach := Nat.eq_zero_of_not_pos hruns
    rw [Rule.reach_append, jwt_stays hfront] at hreach
    refine Eq.trans ?_ hreach
    exact (Rule.shown_same fun q _ _ before => ((hrest.append token).append q).jwtValue before).2.symm
  · rw [← (hrest.append token).jwtValue, wordBefore, wordBefore, ← List.foldl_append]
    rw [(jwt_found hfound).1] at hfound
    exact hfound

/-- **Tokens that `JWT_VALUE` takes each leave the same**, behind other characters of tokens. -/
theorem replace_taken_token (hstretch : ∀ c ∈ stretch, inToken c = true) {before : Bool}
    (hreach : w.jwtValue.reach w.isWord (token ++ rest) before 0 stretch = 0)
    (hreach' : w.jwtValue.reach w.isWord (token' ++ rest) before 0 stretch = 0)
    (hfound : w.jwtValue (wordBefore w.isWord before stretch) (token ++ rest) =
      some (redactedMark, token.length))
    (hfound' : w.jwtValue (wordBefore w.isWord before stretch) (token' ++ rest) =
      some (redactedMark, token'.length)) :
    w.jwtValue.replace w.isWord before 0 (stretch ++ (token ++ rest)) =
      w.jwtValue.replace w.isWord before 0 (stretch ++ (token' ++ rest)) := by
  have hshown : w.jwtValue.shown w.isWord (token ++ rest) before 0 stretch =
      w.jwtValue.shown w.isWord (token' ++ rest) before 0 stretch :=
    Rule.shown_short (fun q hq _ _ hshort hshort' =>
      jwt_short hfound hfound' (fun c hc => hstretch c (hq.subset hc)) hshort hshort') hreach hreach'
  have htaken {token : List Char} {before : Bool}
      (hfound : w.jwtValue before (token ++ rest) = some (redactedMark, token.length)) :
      w.jwtValue.replace w.isWord before 0 (token ++ rest) =
        redactedMark ++ w.jwtValue.replace w.isWord (wordBefore w.isWord before token) 0 rest ∧
      w.border (wordBefore w.isWord before token) rest = true := by
    obtain ⟨-, hlong, -, hborder⟩ := jwt_found hfound
    have hne : token ++ rest ≠ [] :=
      List.append_ne_nil_of_left_ne_nil (List.ne_nil_of_length_pos (by omega)) rest
    rw [List.take_left, List.drop_left] at hborder
    rw [Rule.replace_taken hne (by omega) hfound, Rule.replace_skip le_rfl, Nat.sub_self]
    exact ⟨rfl, hborder⟩
  obtain ⟨hreplace, hborder⟩ := htaken hfound
  obtain ⟨hreplace', hborder'⟩ := htaken hfound'
  -- a word begins or ends behind both tokens, and the same text is there
  have hword : wordBefore w.isWord (wordBefore w.isWord before stretch) token =
      wordBefore w.isWord (wordBefore w.isWord before stretch) token' := by
    have hsame : ∀ a a' b : Bool, (a != b) = true → (a' != b) = true → a = a' := by decide
    exact hsame _ _ _ hborder hborder'
  rw [@Rule.replace_append _ _ _ _ _ stretch (token ++ rest),
    @Rule.replace_append _ _ _ _ _ stretch (token' ++ rest),
    hreach, hreach', hshown, hreplace, hreplace', hword]

/-- **Two tokens that `JWT_VALUE` takes leave the same**, when the first pattern finds the same behind
them. -/
theorem jwt_hides (hlength : token.length = token'.length)
    (hruns : ¬ RunsInto w w.bearerOrBasic front (token ++ rest))
    (h : Seen w front token rest) (h' : Seen w front token' rest)
    (hbegun : begun w front token rest = begun w front token' rest) :
    w.sub w.jwtValue (w.sub w.bearerOrBasic (front ++ (token ++ rest))) =
      w.sub w.jwtValue (w.sub w.bearerOrBasic (front ++ (token' ++ rest))) := by
  have hseen {token : List Char} (h : Seen w front token rest) : 8 < token.length ∧ ∀ c ∈ token,
    inToken c = true := by
    obtain ⟨-, mark, hfound⟩ := h
    obtain ⟨-, hlong, hchars, -⟩ := jwt_found hfound
    rw [List.take_left] at hchars
    exact ⟨hlong, hchars⟩
  obtain ⟨hlong, hchars⟩ := hseen h
  obtain ⟨hlong', hchars'⟩ := hseen h'
  have hsix : rest = [] ∨ 6 ≤ token.length := .inr (by omega)
  have hreach : w.bearerOrBasic.reach w.isWord (token ++ rest) false 0 front = 0 :=
    Nat.eq_zero_of_not_pos hruns
  obtain ⟨hshown, hreach'⟩ := @Rule.shown_same Char w.isWord w.bearerOrBasic false 0 front (token ++ rest)
    (token' ++ rest) fun q _ hq before => w.bearer_same hchars hchars' hlength hsix hq before
  have hne {token : List Char} (hlong : 8 < token.length) : token ≠ [] := List.ne_nil_of_length_pos (by omega)
  have hbearer {token : List Char} (hlong : 8 < token.length) (htoken : ∀ c ∈ token, inToken c = true)
      (hreach : w.bearerOrBasic.reach w.isWord (token ++ rest) false 0 front = 0) :
      w.sub w.bearerOrBasic (front ++ (token ++ rest)) =
        w.bearerOrBasic.shown w.isWord (token ++ rest) false 0 front ++
          (token ++ w.shownBehind (begun w front token rest) rest) := by
    show w.bearerOrBasic.replace w.isWord false 0 (front ++ (token ++ rest)) = _
    rw [Rule.replace_append, hreach, w.replace_bearer htoken (hne hlong)]
    rfl
  rw [hbearer hlong hchars hreach, hbearer hlong' hchars' (hreach'.symm.trans hreach), ← hshown, ← hbegun]
  -- what the first pattern leaves behind the tokens looks like what was there
  have hbehind : w.LooksAlike rest (w.shownBehind (begun w front token rest) rest) :=
    LooksAlike.shownBehind hchars _
  generalize w.shownBehind (begun w front token rest) rest = behind at hbehind ⊢
  obtain ⟨front, stretch, rfl, hstretch, hfront⟩ := exists_stretch front
  obtain ⟨front', hkept, hlast⟩ := w.bearer_keeps hchars hstretch (hne hlong) hsix hreach
  have hfront' : ∀ c ∈ front'.getLast?, inToken c = false := fun c hc => hfront c (hlast ▸ hc)
  obtain ⟨shown, hsub⟩ := replace_jwt_append (w := w) hfront' (stretch ++ (token ++ behind))
    (stretch ++ (token' ++ behind))
  obtain ⟨hreach, hfound⟩ := h.behind hfront hbehind
  obtain ⟨hreach', hfound'⟩ := h'.behind hfront hbehind
  rw [hkept, List.append_assoc, List.append_assoc, hsub _ List.mem_cons_self,
    hsub _ (List.mem_cons_of_mem _ List.mem_cons_self), wordBefore_of_last hlast,
    replace_taken_token hstretch hreach hreach' hfound hfound']

theorem Quiet.sub {rules : List (Rule Char)} {cs : List Char} (h : Quiet w rules cs) {rule : Rule Char}
    (hrule : rule ∈ rules) : w.sub rule cs = cs := Rule.replace_of_not_begins (h rule hrule)

theorem patterns_eq (htoken : ∀ c ∈ token, inToken c = true) (htoken' : ∀ c ∈ token', inToken c = true)
    (hlength : token.length = token'.length) (hlong : rest = [] ∨ 15 ≤ token.length)
    (h : KeptHidden w front token token' rest) :
    patterns w (front ++ (token ++ rest)) = patterns w (front ++ (token' ++ rest)) := by
  have hlong' : rest = [] ∨ 6 ≤ token.length := hlong.imp_right (show 6 ≤ 15 by decide).trans
  by_cases hruns : RunsInto w w.bearerOrBasic front (token ++ rest)
  · unfold patterns
    rw [w.bearer_swallows htoken htoken' hlength hlong' hruns]
  unfold patterns
  rcases h with rfl | htaken | ⟨hquiet, hquiet', hurl⟩ | ⟨hquiet, hquiet', hquery⟩ | ⟨hseen, hseen', hbegun⟩
  · rfl
  · exact absurd htaken.2.2 hruns
  · rw [hquiet.sub (by simp), hquiet.sub (by simp), hquiet'.sub (by simp), hquiet'.sub (by simp),
      url_swallows htoken htoken' hlength hlong hurl]
  · rw [hquiet.sub (by simp), hquiet.sub (by simp), hquiet.sub (by simp), hquiet'.sub (by simp),
      hquiet'.sub (by simp), hquiet'.sub (by simp), query_swallows htoken htoken' hlength hlong hquery]
  · rw [jwt_hides hlength hruns hseen hseen' hbegun]

end Pieces

/-- Of two tokens that are hidden the same is shown. -/
theorem redactText_eq (r : SensitiveDataRedactor) {front token token' rest : List Char}
    (h : TokenTwins token token')
    {x y : String} (hx : x.toList = front ++ (token ++ rest)) (hy : y.toList = front ++ (token' ++ rest))
    (hhidden : HiddenAt w (r.maximumStringLength - front.length) front token token' rest) :
    r.redactText w x = r.redactText w y := by
  unfold redactText
  rw [hx, hy]
  generalize hleft : r.maximumStringLength - front.length = left at hhidden
  have htake (token : List Char) : (front ++ (token ++ rest)).take r.maximumStringLength =
      front.take r.maximumStringLength ++ (token.take left ++ rest.take (left - token.length)) := by
    rw [List.take_append, hleft, List.take_append]
  rw [htake, htake, ← h.length]
  obtain ⟨hshaped, hshaped', hlength⟩ := h
  refine congrArg String.ofList ?_
  by_cases hzero : left = 0
  · rw [hzero, List.take_zero, List.take_zero]
  rw [List.take_of_length_le (show front.length ≤ r.maximumStringLength by omega)]
  refine patterns_eq (fun c hc => hshaped.chars c (List.mem_of_mem_take hc))
    (fun c hc => hshaped'.chars c (List.mem_of_mem_take hc)) ?_ ?_ hhidden
  · rw [List.length_take, List.length_take, hlength]
  · have hlong := hshaped.long
    by_cases hcut : left ≤ token.length
    · exact .inl (by rw [Nat.sub_eq_zero_of_le hcut, List.take_zero])
    · exact .inr (by rw [List.length_take]; omega)

/-! ### Values -/

variable {α : Type}

mutual

/-- Two values of one shape that differ in nothing but secrets. -/
inductive Alike : Loggable α → Loggable α → Prop
  | same (value : Loggable α) : Alike value value
  | secretStr (value value' : String) : Alike (.secretStr value) (.secretStr value')
  | text {front token token' rest : List Char} (h : TokenTwins token token') {x y : String}
      (hx : x.toList = front ++ (token ++ rest)) (hy : y.toList = front ++ (token' ++ rest)) :
      Alike (.text x) (.text y)
  | mapping {entries entries' : List (String × Loggable α)} (h : AlikeEntries entries entries') :
      Alike (.mapping entries) (.mapping entries')
  | sequence {items items' : List (Loggable α)} (h : AlikeItems items items') :
      Alike (.sequence items) (.sequence items')

/-- Entries of the same keys, with any values behind the sensitive ones. -/
inductive AlikeEntries : List (String × Loggable α) → List (String × Loggable α) → Prop
  | nil : AlikeEntries [] []
  | sensitive {key : String} (hkey : sensitiveKey key = true) (value value' : Loggable α)
      {entries entries' : List (String × Loggable α)} (h : AlikeEntries entries entries') :
      AlikeEntries ((key, value) :: entries) ((key, value') :: entries')
  | cons (key : String) {value value' : Loggable α} (hvalue : Alike value value')
      {entries entries' : List (String × Loggable α)} (h : AlikeEntries entries entries') :
      AlikeEntries ((key, value) :: entries) ((key, value') :: entries')

inductive AlikeItems : List (Loggable α) → List (Loggable α) → Prop
  | nil : AlikeItems [] []
  | cons {item item' : Loggable α} (hitem : Alike item item') {items items' : List (Loggable α)}
      (h : AlikeItems items items') : AlikeItems (item :: items) (item' :: items')

end

mutual

/-- Where two values have different tokens in texts that are read at all, they are hidden. -/
def Hidden (r : SensitiveDataRedactor) (depth : ℕ) : Loggable α → Loggable α → Prop
  | .mapping entries, .mapping entries' => depth < r.maximumDepth →
      HiddenEntries r (depth + 1) entries entries'
  | .sequence items, .sequence items' => depth < r.maximumDepth → HiddenItems r (depth + 1) items items'
  | .text x, .text y => depth < r.maximumDepth → x ≠ y → ∃ front token token' rest,
      TokenTwins token token' ∧ x.toList = front ++ (token ++ rest) ∧ y.toList = front ++ (token' ++ rest) ∧
        HiddenAt w (r.maximumStringLength - front.length) front token token' rest
  | _, _ => True

def HiddenEntries (r : SensitiveDataRedactor) (depth : ℕ) :
    List (String × Loggable α) → List (String × Loggable α) → Prop
  | (key, value) :: entries, (_, value') :: entries' =>
    (sensitiveKey key = false → Hidden r depth value value') ∧ HiddenEntries r depth entries entries'
  | _, _ => True

def HiddenItems (r : SensitiveDataRedactor) (depth : ℕ) : List (Loggable α) → List (Loggable α) → Prop
  | item :: items, item' :: items' => Hidden r depth item item' ∧ HiddenItems r depth items items'
  | _, _ => True

end

section Values

variable {w} {r : SensitiveDataRedactor}

theorem within_eq {depth : ℕ} {value value' : Loggable α} (h : depth < r.maximumDepth → value = value') :
    r.within depth value = r.within depth value' := by
  unfold within
  split
  · rfl
  · rename_i hdepth
    exact h (not_le.mp hdepth)

theorem redact_sensitive {key : Option String} (h : key.any sensitiveKey = true) (depth : ℕ)
    (value : Loggable α) : r.redact w key depth value = .text "[REDACTED]" := by
  unfold redact
  exact if_pos h

theorem redact_text (value : String) :
    r.redact w none 0 (.text value : Loggable α) = .text (r.redactText w value) := by
  have hdepth : ¬ r.maximumDepth ≤ 0 := not_le.mpr r.depth_pos
  simp [redact, within, hdepth]

mutual

theorem redact_alike {value value' : Loggable α} (h : Alike value value') (key : Option String) (depth : ℕ)
    (hhidden : key.any sensitiveKey = false → Hidden w r depth value value') :
    r.redact w key depth value = r.redact w key depth value' := by
  cases hkey : key.any sensitiveKey with
  | true => rw [redact_sensitive hkey, redact_sensitive hkey]
  | false =>
    have hhidden := hhidden hkey
    cases h with
    | same value => rfl
    | secretStr value value' =>
      unfold redact
      rfl
    | @text front token token' rest htwins x y hx hy =>
      unfold Hidden at hhidden
      unfold redact
      rw [hkey, if_neg Bool.false_ne_true, if_neg Bool.false_ne_true]
      refine within_eq fun hdepth => congrArg Loggable.text ?_
      by_cases hsame : x = y
      · rw [hsame]
      · obtain ⟨front, token, token', rest, htwins, hx, hy, hat⟩ := hhidden hdepth hsame
        exact redactText_eq w r htwins hx hy hat
    | mapping hentries =>
      unfold Hidden at hhidden
      unfold redact
      rw [hkey, if_neg Bool.false_ne_true, if_neg Bool.false_ne_true]
      exact within_eq fun hdepth =>
        congrArg (Loggable.mapping ∘ dictOf) (redactEntries_alike hentries (depth + 1) (hhidden hdepth))
    | sequence hitems =>
      unfold Hidden at hhidden
      unfold redact
      rw [hkey, if_neg Bool.false_ne_true, if_neg Bool.false_ne_true]
      exact within_eq fun hdepth =>
        congrArg Loggable.sequence (redactItems_alike hitems (depth + 1) (hhidden hdepth))

theorem redactEntries_alike {entries entries' : List (String × Loggable α)}
    (h : AlikeEntries entries entries') (depth : ℕ) (hhidden : HiddenEntries w r depth entries entries') :
    r.redactEntries w depth entries = r.redactEntries w depth entries' := by
  cases h with
  | nil => rfl
  | @sensitive key hkey value value' entries entries' h =>
    unfold HiddenEntries at hhidden
    have hsensitive : (some key).any sensitiveKey = true := hkey
    unfold redactEntries
    rw [redact_sensitive hsensitive, redact_sensitive hsensitive, redactEntries_alike h depth hhidden.2]
  | cons key hvalue h =>
    unfold HiddenEntries at hhidden
    unfold redactEntries
    rw [redact_alike hvalue (some key) depth hhidden.1, redactEntries_alike h depth hhidden.2]

theorem redactItems_alike {items items' : List (Loggable α)} (h : AlikeItems items items') (depth : ℕ)
    (hhidden : HiddenItems w r depth items items') :
    r.redactItems w depth items = r.redactItems w depth items' := by
  cases h with
  | nil => rfl
  | cons hitem h =>
    unfold HiddenItems at hhidden
    unfold redactItems
    rw [redact_alike hitem none depth fun _ => hhidden.1, redactItems_alike h depth hhidden.2]

end

end Values

/-- **Two values that differ in nothing but secrets are redacted to the same** when the key of the whole is
sensitive, or the different tokens in texts that are read are hidden. -/
theorem redact_eq (r : SensitiveDataRedactor) {value value' : Loggable α} (h : Alike value value')
    (key : Option String) (hhidden : key.any sensitiveKey = true ∨ Hidden w r 0 value value') :
    r.redact w key 0 value = r.redact w key 0 value' :=
  redact_alike h key 0 fun hkey => hhidden.resolve_left (ne_true_of_eq_false hkey)

/-! ### A sample -/

/-- The letters of ASCII, and those that pass for one. -/
def asciiWords : WordTable where
  isWord c := c.isAlphanum || c = '_' || c ∈ ['İ', 'ı', 'ſ', '\u212A']
  ascii c hc := by
    have hother : c ∉ ['İ', 'ı', 'ſ', '\u212A'] := by
      intro hmem
      have hlarge : ∀ c ∈ ['İ', 'ı', 'ſ', '\u212A'], decide (128 ≤ c.toNat) = true :=
        List.all_eq_true.mp (by decide)
      have hle := of_decide_eq_true (hlarge c hmem)
      omega
    simp [hother]
  letters c hc := by simp [hc]
  spaces c hc := by
    have hletters : ∀ c ∈ ['İ', 'ı', 'ſ', '\u212A'], (!isSpace c) = true := List.all_eq_true.mp (by decide)
    by_contra hword
    simp only [Bool.not_eq_false, Bool.or_eq_true, decide_eq_true_eq] at hword
    have hspace : isSpace c = false := by
      rcases hword with (hword | rfl) | hword
      · exact not_space_of_inToken (by simp [inToken, isToken, hword])
      · decide
      · simpa using hletters c hword
    rw [hspace] at hc
    cases hc

/-- A token of three parts, of which the first one is given. -/
def sampleToken (header : List Char) : List Char :=
  header ++ '.' :: (List.replicate 8 'b' ++ '.' :: List.replicate 8 'c')

theorem sampleToken_shaped {header : List Char} (hlong : 8 ≤ header.length)
    (hchars : header.all isToken = true) : JwtShaped (sampleToken header) := by
  refine ⟨header, List.replicate 8 'b', List.replicate 8 'c', rfl, fun part hpart => ?_⟩
  simp only [List.mem_cons, List.not_mem_nil, or_false] at hpart
  rcases hpart with rfl | rfl | rfl
  · exact ⟨hlong, List.all_eq_true.mp hchars⟩
  · exact ⟨by decide, List.all_eq_true.mp (by decide)⟩
  · exact ⟨by decide, List.all_eq_true.mp (by decide)⟩

theorem sampleToken_twins :
    TokenTwins (sampleToken (List.replicate 8 'a')) (sampleToken (List.replicate 8 'd')) where
  shaped := sampleToken_shaped (by decide) (by decide)
  shaped' := sampleToken_shaped (by decide) (by decide)
  length := by decide

theorem sample_toList (header : List Char) :
    (String.ofList (sampleToken header)).toList = [] ++ (sampleToken header ++ []) := by
  rw [String.toList_ofList, List.append_nil]
  rfl

theorem sample_text_alike : Alike (.text (String.ofList (sampleToken (List.replicate 8 'a'))) : Loggable α)
    (.text (String.ofList (sampleToken (List.replicate 8 'd')))) :=
  .text sampleToken_twins (sample_toList _) (sample_toList _)

/-- A token in a text of its own, and a password. -/
def sampleEntries (header : List Char) (password : String) : Loggable Unit :=
  .mapping [("password", .text password), ("note", .text (String.ofList (sampleToken header)))]

def sampleRedactor (n : ℕ) : SensitiveDataRedactor := ⟨n + 1, 8, Nat.succ_pos n, by decide⟩

theorem sample_alike : Alike (sampleEntries (List.replicate 8 'a') "one")
    (sampleEntries (List.replicate 8 'd') "two") :=
  .mapping (.sensitive (by decide +kernel) _ _ (.cons _ sample_text_alike .nil))

/-- A whole token is hidden. -/
theorem redact_eq_sample :
    (sampleRedactor 40).redact asciiWords none 0 (sampleEntries (List.replicate 8 'a') "one") =
      (sampleRedactor 40).redact asciiWords none 0 (sampleEntries (List.replicate 8 'd') "two") := by
  have hseen (header : List Char) (hfound : asciiWords.jwtValue false (sampleToken header ++ []) =
      some (redactedMark, (sampleToken header).length)) : Seen asciiWords [] (sampleToken header) [] :=
    ⟨lt_irrefl 0, redactedMark, hfound⟩
  refine redact_eq asciiWords (sampleRedactor 40) sample_alike none (.inr ?_)
  unfold sampleEntries Hidden
  intro _
  unfold HiddenEntries HiddenEntries HiddenEntries Hidden
  refine ⟨fun hkey => absurd hkey (by decide +kernel), fun _ _ _ => ?_, trivial⟩
  refine ⟨[], _, _, [], sampleToken_twins, sample_toList _, sample_toList _, ?_⟩
  refine .inr (.inr (.inr (.inr ⟨?_, ?_, ?_⟩)))
  · exact hseen (List.replicate 8 'a') (by decide +kernel)
  · exact hseen (List.replicate 8 'd') (by decide +kernel)
  · decide +kernel

/-- **The maximum length can cut a token**, and what is left of it is shown. -/
theorem cut_token_shown :
    (¬ ∀ (w : WordTable) (r : SensitiveDataRedactor) (value value' : Loggable Unit), Alike value value' →
      r.redact w none 0 value = r.redact w none 0 value') ∧
    (sampleRedactor 19).redact asciiWords none 0
        (.text (String.ofList (sampleToken (List.replicate 8 'a'))) : Loggable Unit) =
      .text (String.ofList (List.replicate 8 'a' ++ '.' :: (List.replicate 8 'b' ++ ['.', 'c', 'c']))) := by
  have hcut (header : List Char) (hpatterns : patterns asciiWords ((sampleToken header).take 20) =
      header ++ '.' :: (List.replicate 8 'b' ++ ['.', 'c', 'c'])) :
      (sampleRedactor 19).redact asciiWords none 0 (.text (String.ofList (sampleToken header)) :
        Loggable Unit) =
        .text (String.ofList (header ++ '.' :: (List.replicate 8 'b' ++ ['.', 'c', 'c']))) := by
    rw [redact_text, redactText, String.toList_ofList, ← hpatterns]
    rfl
  have ha := hcut (List.replicate 8 'a') (by decide +kernel)
  have hd := hcut (List.replicate 8 'd') (by decide +kernel)
  refine ⟨fun hall => ?_, ha⟩
  have hsame := hall asciiWords (sampleRedactor 19) _ _ sample_text_alike
  rw [ha, hd] at hsame
  have hlists := String.ofList_injective (Loggable.text.inj hsame)
  revert hlists
  decide

end CountyFlow.Security
