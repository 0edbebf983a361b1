import CountyFlow.Lib.JsonText

/-!
# JSON texts that are written

The writer escapes what it has to and nothing else, and puts no blanks between values.
-/

namespace CountyFlow.Lib

variable {c e d close fuel : ℕ} {z : ℤ} {v : Json} {key behind : Text} {entries : List (Text × Json)}

namespace Json

/-! ### Writing -/

/-- The characters that are written with a backslash and a letter or sign. -/
def escapes : List (ℕ × ℕ) :=
  [(quote, quote), (backslash, backslash), (8, 98), (12, 102), (10, 110), (13, 114), (9, 116)]

/-- What a character of a string is written as. -/
def escaped (c : ℕ) : Text :=
  match escapes.lookup c with
  | some e => [backslash, e]
  | none =>
    if c < 32 then [backslash, 117, 48, 48, digitCode (c / 16), digitCode (c % 16)]
    else [c]

def quoted (text : Text) : Text := quote :: (text.flatMap escaped ++ [quote])

def intText (z : ℤ) : Except JsonError Text :=
  if Short z then .ok ((if z < 0 then [minus] else []) ++ digits z.natAbs)
  else .error .tooManyDigits

mutual

/-- The text of a value, without blanks. -/
def dumps : Json → Except JsonError Text
  | .null => .ok (codes "null")
  | .bool b => .ok (if b then codes "true" else codes "false")
  | .int z => intText z
  | .float text => .ok text
  | .str text => .ok (quoted text)
  | .list [] => .ok [openBracket, closeBracket]
  | .list (item :: rest) => do
      let text ← dumps item
      let more ← dumpsItems rest
      .ok (openBracket :: (text ++ more))
  | .dict [] => .ok [openBrace, closeBrace]
  | .dict ((key, member) :: rest) => do
      let text ← dumps member
      let more ← dumpsMembers rest
      .ok (openBrace :: (quoted key ++ colon :: (text ++ more)))

def dumpsItems : List Json → Except JsonError Text
  | [] => .ok [closeBracket]
  | item :: rest => do
      let text ← dumps item
      let more ← dumpsItems rest
      .ok (comma :: (text ++ more))

/-- The other members of a dictionary, and its end. -/
def dumpsMembers : List (Text × Json) → Except JsonError Text
  | [] => .ok [closeBrace]
  | (key, member) :: rest => do
      let text ← dumps member
      let more ← dumpsMembers rest
      .ok (comma :: (quoted key ++ colon :: (text ++ more)))

end

/-! ### Strings are read back -/

theorem hexDigit_digitCode : ∀ d < 16, hexDigit (digitCode d) = some d := by decide

theorem hexCode_digitCode (h : c < 32) :
    hexCode 48 48 (digitCode (c / 16)) (digitCode (c % 16)) = some c := by
  have hzero : hexDigit 48 = some 0 := rfl
  simp only [hexCode, hzero, hexDigit_digitCode (c / 16) (by omega), hexDigit_digitCode (c % 16) (by omega),
    Option.bind_eq_bind, Option.bind_some]
  congr 1
  omega

theorem characters_backslash (he : e ≠ 117) (h : unescaped e = some c) (text : Text) :
    characters (backslash :: e :: text) = (characters text).map fun read =>
    ((false, c) :: read.1, read.2) := by
  have hquote : backslash ≠ quote := by decide
  rw [characters.eq_def]
  simp only [hquote, he, h, if_true, if_false]

theorem unescaped_escapes (h : escapes.lookup c = some e) : e ≠ 117 ∧ unescaped e = some c := by
  obtain ⟨front, back, hsplit, -⟩ := List.lookup_eq_some_iff.mp h
  have hmem : (c, e) ∈ escapes := by
    rw [hsplit]
    simp
  exact (by decide : ∀ entry ∈ escapes, entry.2 ≠ 117 ∧ unescaped entry.2 = some entry.1) (c, e) hmem

theorem characters_escaped (c : ℕ) (text : Text) : ∃ coded, (coded = true → c < 32) ∧
    characters (escaped c ++ text) = (characters text).map fun read => ((coded, c) :: read.1, read.2) := by
  unfold escaped
  split
  · rename_i e he
    obtain ⟨hletter, hcode⟩ := unescaped_escapes he
    exact ⟨false, nofun, characters_backslash hletter hcode text⟩
  · rename_i hnone
    split
    · rename_i hcontrol
      have hquote : backslash ≠ quote := by decide
      refine ⟨true, fun _ => hcontrol, ?_⟩
      rw [characters.eq_def]
      simp only [hquote, List.cons_append, List.nil_append, hexCode_digitCode hcontrol, if_true, if_false]
    · rename_i hcontrol
      have hplain : c ≠ quote ∧ c ≠ backslash := by
        constructor
        · intro h
          rw [h] at hnone
          cases hnone
        · intro h
          rw [h] at hnone
          cases hnone
      refine ⟨false, nofun, ?_⟩
      rw [characters.eq_def]
      simp only [hplain.1, hplain.2, hcontrol, List.cons_append, List.nil_append, if_false]

theorem joined_plain {read : List (Bool × ℕ)} (h : ∀ u ∈ read, u.1 = true → u.2 < 32) :
    joined read = read.map Prod.snd := by
  fun_induction joined read with
  | case1 => rfl
  | case2 => rfl
  | case3 coded a coded' b rest hpair ih =>
    have ha := h (coded, a) List.mem_cons_self hpair.1
    have hhigh := hpair.2.2.1
    simp only [isHigh, Bool.decide_and, Bool.and_eq_true, decide_eq_true_eq] at hhigh
    omega
  | case4 coded a coded' b rest hpair ih =>
    rw [ih fun u hu => h u (List.mem_cons_of_mem _ hu), List.map_cons (f := Prod.snd) (a := (coded, a))]

theorem characters_flatMap (text rest : Text) : ∃ read, (∀ u ∈ read, u.1 = true → u.2 < 32) ∧
    read.map Prod.snd = text ∧ characters (text.flatMap escaped ++ quote :: rest) = .ok (read, rest) := by
  induction text with
  | nil => exact ⟨[], nofun, rfl, by rw [characters.eq_def]; rfl⟩
  | cons c text ih =>
    obtain ⟨read, hread, htext, hok⟩ := ih
    obtain ⟨coded, hcoded, hc⟩ := characters_escaped c (text.flatMap escaped ++ quote :: rest)
    refine ⟨(coded, c) :: read, ?_, by rw [List.map_cons, htext], ?_⟩
    · intro u hu
      rcases List.mem_cons.mp hu with rfl | hu
      · exact hcoded
      · exact hread u hu
    · rw [List.flatMap_cons, List.append_assoc, hc, hok]
      rfl

/-- **A string is read back.** -/
theorem string_quoted (text rest : Text) :
    string (text.flatMap escaped ++ quote :: rest) = .ok (text, rest) := by
  obtain ⟨read, hread, htext, hok⟩ := characters_flatMap text rest
  rw [string, hok]
  show Except.ok (joined read, rest) = .ok (text, rest)
  rw [joined_plain hread, htext]

/-! ### Integers are read back -/

/-- What may follow a value: its text does not go on there. -/
def Stops (rest : Text) : Prop := ∀ c ∈ rest.head?, c = comma ∨ c = closeBracket ∨ c = closeBrace

theorem stops_nil : Stops [] := nofun

theorem Stops.cons (h : c = comma ∨ c = closeBracket ∨ c = closeBrace) (rest : Text) : Stops (c :: rest) := by
  intro d hd
  cases hd
  exact h

theorem digits_shape (n : ℕ) : (∀ c ∈ digits n, isDigit c = true) ∧
    ∃ d ds, digits n = d :: ds ∧ (d = 48 → n = 0) := by
  induction n using Nat.strongRecOn with
  | ind n ih =>
    by_cases h : n < 10
    · rw [digits_small h]
      refine ⟨fun c hc => ?_, n + 48, [], rfl, fun h => by omega⟩
      rw [List.mem_singleton.mp hc, isDigit_iff]
      omega
    · obtain ⟨hall, d, ds, hds, hzero⟩ := ih (n / 10) (by omega)
      rw [digits_large (by omega)]
      refine ⟨fun c hc => ?_, d, ds ++ [n % 10 + 48], by rw [hds, List.cons_append], fun h => ?_⟩
      · rcases List.mem_append.mp hc with hc | hc
        · exact hall c hc
        · rw [List.mem_singleton.mp hc, isDigit_iff]
          omega
      · have hq := hzero h
        omega

theorem ofDigits_digits (n : ℕ) : ofDigits (digits n) = n := by
  induction n using Nat.strongRecOn with
  | ind n ih =>
    by_cases h : n < 10
    · rw [digits_small h]
      simp [ofDigits]
    · have hq := ih (n / 10) (by omega)
      unfold ofDigits at hq ⊢
      rw [digits_large (by omega), List.foldl_append, hq, List.foldl_cons, List.foldl_nil]
      omega

variable {rest : Text}

theorem not_digit_of_stops (h : Stops rest) : ∀ c ∈ rest.head?, isDigit c = false := by
  intro c hc
  rcases h c hc with rfl | rfl | rfl <;> rfl

theorem wholePart_digits (n : ℕ) (h : Stops rest) : wholePart (digits n ++ rest) = some (digits n, rest) := by
  obtain ⟨hall, d, ds, hds, hzero⟩ := digits_shape n
  rw [hds] at hall ⊢
  have hd := hall d List.mem_cons_self
  have hrest := not_digit_of_stops h
  have hstop : rest.takeWhile isDigit = [] ∧ rest.dropWhile isDigit = rest := by
    cases rest with
    | nil => exact ⟨rfl, rfl⟩
    | cons c rest =>
      have hc := hrest c rfl
      exact ⟨List.takeWhile_cons_of_neg (by simp [hc]), List.dropWhile_cons_of_neg (by simp [hc])⟩
  simp only [List.cons_append, wholePart]
  by_cases hd48 : d = 48
  · have hnil : ds = [] := by
      rw [hzero hd48, digits_small (by decide)] at hds
      exact (List.cons.inj hds).2.symm
    rw [if_pos hd48, hnil, List.nil_append]
  · have hds : ∀ c ∈ ds, isDigit c = true := fun c hc => hall c (List.mem_cons_of_mem _ hc)
    rw [if_neg hd48, if_pos hd, List.takeWhile_append_of_pos hds, List.dropWhile_append_of_pos hds,
      hstop.1, hstop.2, List.append_nil]

theorem fraction_of_stops (h : Stops rest) : fraction rest = ([], rest) := by
  unfold fraction
  split
  · rename_i p d rest'
    have hp : p ≠ 46 := by
      rcases h p rfl with rfl | rfl | rfl <;> decide
    rw [if_neg fun hd => hp hd.1]
  · rfl

theorem exponent_of_stops (h : Stops rest) : exponent rest = ([], rest) := by
  cases rest with
  | nil => rfl
  | cons e rest =>
    have he : ¬ (e = 101 ∨ e = 69) := by
      rcases h e rfl with rfl | rfl | rfl <;> decide
    simp only [exponent]
    rw [if_neg fun hd => he hd.1]

variable {text : Text}

theorem intText_shape (h : intText z = .ok text) : Short z ∧
    ∃ d ds, digits z.natAbs = d :: ds ∧ isDigit d = true ∧ text = (if z < 0 then [minus] else []) ++ d ::
    ds := by
  simp only [intText] at h
  split at h
  · rename_i hshort
    cases h
    obtain ⟨hall, d, ds, hds, -⟩ := digits_shape z.natAbs
    exact ⟨hshort, d, ds, hds, hall d (by rw [hds]; exact List.mem_cons_self), by rw [hds]⟩
  · cases h

theorem unsigned_signed (hd : isDigit d = true) (negative : Prop) [Decidable negative] (rest : Text) :
    unsigned ((if negative then [minus] else []) ++ d :: rest) = (decide negative, d :: rest) := by
  by_cases h : negative
  · simp [unsigned, h]
  · have hne : d ≠ minus := by
      intro h
      rw [h] at hd
      cases hd
    simp [unsigned, h, hne]

/-- **An integer is read back.** -/
theorem number_intText (h : intText z = .ok text) (hrest : Stops rest) :
    number (text ++ rest) = .ok (.int z, rest) := by
  obtain ⟨hshort, d, ds, hds, hd, rfl⟩ := intText_shape h
  have hunsigned := unsigned_signed hd (z < 0) (ds ++ rest)
  have hwhole : wholePart (d :: (ds ++ rest)) = some (digits z.natAbs, rest) := by
    rw [← List.cons_append, ← hds]
    exact wholePart_digits _ hrest
  simp only [number, List.append_assoc, List.cons_append, hunsigned, hwhole, fraction_of_stops hrest,
    exponent_of_stops hrest, numeral, and_self, if_true, not_lt.mpr hshort, if_false, ofDigits_digits,
    decide_eq_true_eq]
  have hz : (if z < 0 then -(z.natAbs : ℤ) else z.natAbs) = z := by
    split <;> omega
  rw [hz]
  rfl

theorem names_shape : ∀ name ∈ names.map Prod.fst, (name.head?.all fun c => ¬ isDigit c) = true ∧
    (name.head? = some minus → (name.tail.head?.all fun c => ¬ isDigit c) = true) ∧ 2 ≤ name.length := by
  decide

theorem names_find_none (hd : isDigit d = true) (negative : Prop) [Decidable negative] (rest : Text) :
    names.find? (fun entry => entry.1.isPrefixOf ((if negative then [minus] else []) ++ d :: rest)) =
    none := by
  rw [List.find?_eq_none]
  intro entry hentry
  obtain ⟨hhead, htail, hlength⟩ := names_shape entry.1 (List.mem_map_of_mem hentry)
  obtain ⟨c, e, more, hname⟩ : ∃ c e more, entry.1 = c :: e :: more := by
    match entry.1, hlength with
    | c :: e :: more, _ => exact ⟨c, e, more, rfl⟩
  rw [hname] at hhead htail ⊢
  have hc : isDigit c = false := by simpa using hhead
  by_cases hnegative : negative
  · have he : c = minus → isDigit e = false := fun h => by simpa using htail (congrArg some h)
    rw [if_pos hnegative]
    intro hfront
    simp only [List.cons_append, List.nil_append, List.isPrefixOf, Bool.and_eq_true, beq_iff_eq] at hfront
    have hed := he hfront.1
    rw [hfront.2.1, hd] at hed
    cases hed
  · rw [if_neg hnegative]
    intro hfront
    simp only [List.nil_append, List.isPrefixOf, Bool.and_eq_true, beq_iff_eq] at hfront
    rw [hfront.1, hd] at hc
    cases hc

theorem scalar_intText (h : intText z = .ok text) (hrest : Stops rest) :
    scalar (text ++ rest) = .ok (.int z, rest) := by
  obtain ⟨-, d, ds, -, hd, htext⟩ := intText_shape h
  have hnone : names.find? (fun entry => entry.1.isPrefixOf (text ++ rest)) = none := by
    rw [htext, List.append_assoc, List.cons_append]
    exact names_find_none hd _ _
  rw [scalar, hnone]
  exact number_intText h hrest

/-! ### Values are read back -/

mutual

/-- No number but integers, and no key twice. -/
def Exact : Json → Prop
  | .float _ => False
  | .list items => ExactItems items
  | .dict entries => (entries.map Prod.fst).Nodup ∧ ExactMembers entries
  | _ => True

def ExactItems : List Json → Prop
  | [] => True
  | item :: rest => Exact item ∧ ExactItems rest

def ExactMembers : List (Text × Json) → Prop
  | [] => True
  | (_, member) :: rest => Exact member ∧ ExactMembers rest

end

theorem dumps_head (h : dumps v = .ok text) (hv : Exact v) :
    ∃ c rest, text = c :: rest ∧ isBlank c = false ∧ c ≠ closeBracket ∧ c < 128 := by
  cases v with
  | null =>
    cases h
    exact ⟨_, _, rfl, rfl, by decide, by decide⟩
  | bool b =>
    cases h
    cases b with
    | false => exact ⟨_, _, rfl, rfl, by decide, by decide⟩
    | true => exact ⟨_, _, rfl, rfl, by decide, by decide⟩
  | int z =>
    obtain ⟨-, d, ds, -, hd, rfl⟩ := intText_shape h
    by_cases hz : z < 0
    · rw [if_pos hz]
      exact ⟨_, _, rfl, rfl, by decide, by decide⟩
    · rw [if_neg hz]
      have hdigit := isDigit_iff.mp hd
      refine ⟨d, ds, rfl, ?_, ?_, by omega⟩
      · simp only [isBlank, decide_eq_false_iff_not]
        omega
      · intro h
        rw [h] at hd
        cases hd
  | float text => exact hv.elim
  | str text =>
    cases h
    exact ⟨_, _, rfl, rfl, by decide, by decide⟩
  | list items =>
    cases items with
    | nil =>
      cases h
      exact ⟨_, _, rfl, rfl, by decide, by decide⟩
    | cons item rest =>
      obtain ⟨text₁, -, h⟩ := bind_eq_ok.mp h
      obtain ⟨text₂, -, h⟩ := bind_eq_ok.mp h
      cases h
      exact ⟨_, _, rfl, rfl, by decide, by decide⟩
  | dict entries =>
    cases entries with
    | nil =>
      cases h
      exact ⟨_, _, rfl, rfl, by decide, by decide⟩
    | cons entry rest =>
      obtain ⟨text₁, -, h⟩ := bind_eq_ok.mp h
      obtain ⟨text₂, -, h⟩ := bind_eq_ok.mp h
      cases h
      exact ⟨_, _, rfl, rfl, by decide, by decide⟩

theorem skip_cons (h : isBlank c = false) (rest : Text) : skip (c :: rest) = c :: rest :=
  List.dropWhile_cons_of_neg (by simp [h])

theorem put_of_notMem (h : key ∉ entries.map Prod.fst)
    (member : Json) : put key member entries = entries ++ [(key, member)] := by
  induction entries with
  | nil => rfl
  | cons entry entries ih =>
    rw [List.map_cons, List.mem_cons, not_or] at h
    rw [put, if_neg (Ne.symm h.1), ih h.2, List.cons_append]

theorem ofMembers_of_nodup (h : (entries.map Prod.fst).Nodup) : ofMembers entries = entries := by
  suffices hput : ∀ done more : List (Text × Json), ((done ++ more).map Prod.fst).Nodup →
      more.foldl (fun entries member => put member.1 member.2 entries) done = done ++
      more from hput [] entries h
  intro done more
  induction more generalizing done with
  | nil => simp
  | cons entry more ih =>
    intro hnodup
    have hnew : entry.1 ∉ done.map Prod.fst := by
      rw [List.map_append, List.nodup_append] at hnodup
      intro hmem
      exact hnodup.2.2 _ hmem _ (by simp) rfl
    rw [List.foldl_cons, put_of_notMem hnew, ih _ (by simpa using hnodup)]
    simp

theorem skip_dumps (h : dumps v = .ok text) (hv : Exact v) (rest : Text) :
    skip (text ++ rest) = text ++ rest := by
  obtain ⟨c, text, rfl, hblank, -, -⟩ := dumps_head h hv
  exact skip_cons hblank _

theorem dumps_pos (h : dumps v = .ok text) (hv : Exact v) : 0 < text.length := by
  obtain ⟨c, rest, rfl, -, -, -⟩ := dumps_head h hv
  exact Nat.succ_pos _

theorem stops_items {rest : List Json} (h : dumpsItems rest = .ok text) (behind : Text) :
    Stops (text ++ behind) := by
  cases rest with
  | nil =>
    cases h
    exact .cons (.inr (.inl rfl)) _
  | cons item rest =>
    obtain ⟨text₁, -, h⟩ := bind_eq_ok.mp h
    obtain ⟨text₂, -, h⟩ := bind_eq_ok.mp h
    cases h
    exact .cons (.inl rfl) _

theorem stops_members {rest : List (Text × Json)} (h : dumpsMembers rest = .ok text) (behind : Text) :
    Stops (text ++ behind) := by
  cases rest with
  | nil =>
    cases h
    exact .cons (.inr (.inr rfl)) _
  | cons entry rest =>
    obtain ⟨text₁, -, h⟩ := bind_eq_ok.mp h
    obtain ⟨text₂, -, h⟩ := bind_eq_ok.mp h
    cases h
    exact .cons (.inl rfl) _

section Enclosed

variable {α : Type} {elements : Text → Except JsonError (List α × Text)}

theorem following_close (hclose : isBlank close = false) (element : α) (behind : Text) :
    following close element elements (close :: behind) = .ok ([element], behind) := by
  rw [following, skip_cons hclose]
  exact if_pos rfl

theorem following_comma (hclose : comma ≠ close) (element : α) {rest : List α} (hskip : skip text = text)
    (h : elements text = .ok (rest, behind)) :
    following close element elements (comma :: text) = .ok (element :: rest, behind) := by
  rw [following, skip_cons (by decide)]
  show (if comma = close then _ else _) = _
  rw [if_neg hclose, if_pos rfl, hskip, h]
  rfl

theorem enclosed_of (hc : isBlank c = false) (hclose : c ≠ close) (build : List α → Json) {read : List α}
    (h : elements (c :: text) = .ok (read, behind)) :
    enclosed close build elements (c :: text) = .ok (build read, behind) := by
  rw [enclosed, skip_cons hc]
  show (if c = close then _ else _) = _
  rw [if_neg hclose, h]
  rfl

end Enclosed

theorem members_of {more : Text} {member : Json} {others : List (Text × Json)}
    (hmember : value fuel (text ++ (more ++ rest)) = .ok (member, more ++ rest))
    (hskip : skip (text ++ (more ++ rest)) = text ++ (more ++ rest))
    (hmore : following closeBrace (key, member) (members fuel) (more ++ rest) = .ok ((key, member) :: others,
      rest)) :
    members (fuel + 1) (quoted key ++ colon :: (text ++ (more ++ rest))) = .ok ((key, member) :: others,
      rest) := by
  have hquoted : quoted key ++ colon :: (text ++ (more ++ rest)) =
      quote :: (key.flatMap escaped ++ quote :: colon :: (text ++ (more ++ rest))) := by
    simp [quoted]
  rw [members, hquoted]
  refine bind_eq_ok.mpr ⟨_, rfl, bind_eq_ok.mpr ⟨_, string_quoted key _, bind_eq_ok.mpr ⟨_, rfl, ?_⟩⟩⟩
  rw [hskip]
  exact bind_eq_ok.mpr ⟨_, hmember, hmore⟩

theorem items_of {item : Json} {others : List Json} (hitem : value fuel text = .ok (item, rest))
    (hmore : following closeBracket item (items fuel) rest = .ok (item :: others, behind)) :
    items (fuel + 1) text = .ok (item :: others, behind) := by
  rw [items]
  exact bind_eq_ok.mpr ⟨_, hitem, hmore⟩

theorem value_scalar (hquote : c ≠ quote) (hbrace : c ≠ openBrace)
    (hbracket : c ≠ openBracket) : value (fuel + 1) (c :: rest) = scalar (c :: rest) := by
  rw [value, if_neg hquote, if_neg hbrace, if_neg hbracket]

theorem value_int (h : intText z = .ok text) (hrest : Stops rest) :
    value (fuel + 1) (text ++ rest) = .ok (.int z, rest) := by
  have hscalar := scalar_intText h hrest
  obtain ⟨-, d, ds, -, hd, rfl⟩ := intText_shape h
  have hdigit := isDigit_iff.mp hd
  by_cases hz : z < 0
  · rw [if_pos hz] at hscalar ⊢
    rw [← hscalar]
    exact value_scalar (by decide) (by decide) (by decide)
  · rw [if_neg hz] at hscalar ⊢
    rw [← hscalar]
    refine value_scalar ?_ ?_ ?_
    · rintro rfl
      cases hd
    · rintro rfl
      cases hd
    · rintro rfl
      cases hd

mutual

/-- **A value that is written is read back**, with what follows it left over. -/
theorem value_dumps : ∀ {v : Json} {text : Text}, dumps v = .ok text → Exact v → ∀ {rest : Text}, Stops rest →
    ∀ fuel, 2 * text.length ≤ fuel + 1 → value (fuel + 1) (text ++ rest) = .ok (v, rest)
  | .null, text, h, _, rest, _, fuel, _ => by
      cases h
      exact value_scalar (by decide) (by decide) (by decide)
  | .bool true, text, h, _, rest, _, fuel, _ => by
      cases h
      exact value_scalar (by decide) (by decide) (by decide)
  | .bool false, text, h, _, rest, _, fuel, _ => by
      cases h
      exact value_scalar (by decide) (by decide) (by decide)
  | .int z, text, h, _, rest, hrest, fuel, _ => value_int h hrest
  | .float text, _, _, hv, _, _, _, _ => hv.elim
  | .str s, text, h, _, rest, _, fuel, _ => by
      cases h
      have hquoted : quoted s ++ rest = quote :: (s.flatMap escaped ++ quote :: rest) := by
        simp [quoted]
      rw [hquoted, value, if_pos rfl, string_quoted]
      rfl
  | .list [], text, h, _, rest, _, fuel, _ => by
      cases h
      rfl
  | .list (item :: others), text, h, hv, rest, _, fuel, hfuel => by
      obtain ⟨text₁, h₁, h⟩ := bind_eq_ok.mp h
      obtain ⟨text₂, h₂, h⟩ := bind_eq_ok.mp h
      cases h
      obtain ⟨hitem, hothers⟩ : Exact item ∧ ExactItems others := hv
      have hpos := dumps_pos h₁ hitem
      have hstops := stops_items h₂ rest
      obtain ⟨c, front, hfront, hblank, hclose, -⟩ := dumps_head h₁ hitem
      rw [List.length_cons, List.length_append] at hfuel
      obtain ⟨k, rfl⟩ : ∃ k, fuel = k + 2 := ⟨fuel - 2, by omega⟩
      have hread := items_of (value_dumps h₁ hitem hstops k (by omega))
        (items_dumps h₂ hothers item rest (k + 1) (by omega))
      rw [List.cons_append, List.append_assoc, value, if_neg (by decide), if_neg (by decide), if_pos rfl]
      rw [hfront] at hread ⊢
      exact enclosed_of hblank hclose .list hread
  | .dict [], text, h, _, rest, _, fuel, _ => by
      cases h
      rfl
  | .dict ((key, member) :: others), text, h, hv, rest, _, fuel, hfuel => by
      obtain ⟨text₁, h₁, h⟩ := bind_eq_ok.mp h
      obtain ⟨text₂, h₂, h⟩ := bind_eq_ok.mp h
      cases h
      obtain ⟨hnodup, hmember, hothers⟩ :
        (((key, member) :: others).map Prod.fst).Nodup ∧ Exact member ∧ ExactMembers others := hv
      have hpos := dumps_pos h₁ hmember
      have hstops := stops_members h₂ rest
      simp only [List.length_cons, List.length_append] at hfuel
      obtain ⟨k, rfl⟩ : ∃ k, fuel = k + 2 := ⟨fuel - 2, by omega⟩
      have hread := members_of (value_dumps h₁ hmember hstops k (by omega)) (skip_dumps h₁ hmember _)
        (members_dumps h₂ hothers (key, member) rest (k + 1) (by omega))
      have htext : openBrace :: (quoted key ++ colon :: (text₁ ++ text₂)) ++ rest =
          openBrace :: (quoted key ++ colon :: (text₁ ++ (text₂ ++ rest))) := by
        simp
      rw [htext, value, if_neg (by decide), if_pos rfl]
      have hdict : enclosed closeBrace (fun read => .dict (ofMembers read)) (members (k + 2))
          (quoted key ++ colon :: (text₁ ++ (text₂ ++ rest))) =
            .ok (.dict (ofMembers ((key, member) :: others)), rest) :=
        enclosed_of (by decide) (by decide) _ hread
      rw [ofMembers_of_nodup hnodup] at hdict
      exact hdict

theorem items_dumps : ∀ {rest : List Json} {text : Text}, dumpsItems rest = .ok text → ExactItems rest →
    ∀ (item : Json) (behind : Text) (fuel : ℕ), 2 * text.length ≤ fuel →
      following closeBracket item (items fuel) (text ++ behind) = .ok (item :: rest, behind)
  | [], text, h, _, item, behind, fuel, hfuel => by
      cases h
      exact following_close (by decide) item behind
  | next :: rest, text, h, hexact, item, behind, fuel, hfuel => by
      obtain ⟨text₁, h₁, h⟩ := bind_eq_ok.mp h
      obtain ⟨text₂, h₂, h⟩ := bind_eq_ok.mp h
      cases h
      obtain ⟨hnext, hrest⟩ : Exact next ∧ ExactItems rest := hexact
      have hpos := dumps_pos h₁ hnext
      have hstops := stops_items h₂ behind
      rw [List.length_cons, List.length_append] at hfuel
      obtain ⟨k, rfl⟩ : ∃ k, fuel = k + 2 := ⟨fuel - 2, by omega⟩
      have hread := items_of (value_dumps h₁ hnext hstops k (by omega))
        (items_dumps h₂ hrest next behind (k + 1) (by omega))
      rw [List.cons_append, List.append_assoc]
      exact following_comma (by decide) item (skip_dumps h₁ hnext _) hread

theorem members_dumps : ∀ {rest : List (Text × Json)} {text : Text}, dumpsMembers rest = .ok text →
    ExactMembers rest → ∀ (member : Text × Json) (behind : Text) (fuel : ℕ), 2 * text.length ≤ fuel →
      following closeBrace member (members fuel) (text ++ behind) = .ok (member :: rest, behind)
  | [], text, h, _, member, behind, fuel, hfuel => by
      cases h
      exact following_close (by decide) member behind
  | (key, next) :: rest, text, h, hexact, member, behind, fuel, hfuel => by
      obtain ⟨text₁, h₁, h⟩ := bind_eq_ok.mp h
      obtain ⟨text₂, h₂, h⟩ := bind_eq_ok.mp h
      cases h
      obtain ⟨hnext, hrest⟩ : Exact next ∧ ExactMembers rest := hexact
      have hpos := dumps_pos h₁ hnext
      have hstops := stops_members h₂ behind
      simp only [List.length_cons, List.length_append] at hfuel
      obtain ⟨k, rfl⟩ : ∃ k, fuel = k + 2 := ⟨fuel - 2, by omega⟩
      have hread := members_of (value_dumps h₁ hnext hstops k (by omega)) (skip_dumps h₁ hnext _)
        (members_dumps h₂ hrest (key, next) behind (k + 1) (by omega))
      have htext : comma :: (quoted key ++ colon :: (text₁ ++ text₂)) ++ behind =
          comma :: (quoted key ++ colon :: (text₁ ++ (text₂ ++ behind))) := by
        simp
      rw [htext]
      exact following_comma (by decide) member (skip_cons (by decide) _) hread

end

/-- **What is written is read back.** -/
theorem loads_dumps (h : dumps v = .ok text) (hv : Exact v) : loads text = .ok v := by
  obtain ⟨c, rest, htext, -, -, hc⟩ := dumps_head h hv
  have hpos := dumps_pos h hv
  have hread := value_dumps h hv stops_nil (2 * text.length - 1) (by omega)
  have hskip := skip_dumps h hv []
  have hmark : text.head? ≠ some 0xFEFF := by
    rw [htext]
    intro hhead
    have hmark := Option.some.inj hhead
    omega
  rw [List.append_nil] at hskip
  rw [List.append_nil, Nat.sub_add_cancel (by omega)] at hread
  rw [loads, if_neg hmark, hskip, hread]
  rfl

/-! ### What has a text -/

/-- A value has a text. -/
def Written (v : Json) : Prop := ∃ text, dumps v = .ok text

theorem written_int : Written (.int z) ↔ Short z := by
  constructor
  · rintro ⟨text, h⟩
    exact (intText_shape h).1
  · intro h
    exact ⟨_, if_pos h⟩

theorem written_str (text : Text) : Written (.str text) := ⟨_, rfl⟩

theorem written_null : Written .null := ⟨_, rfl⟩

theorem both_ok {ε β γ δ : Type} {x : Except ε β} {y : Except ε γ} {f : β → γ → δ} :
    (∃ d, (x >>= fun b => y >>= fun c => .ok (f b c)) = .ok d) ↔ (∃ b, x = .ok b) ∧ ∃ c, y = .ok c := by
  constructor
  · rintro ⟨d, h⟩
    obtain ⟨b, hb, h⟩ := bind_eq_ok.mp h
    obtain ⟨c, hc, -⟩ := bind_eq_ok.mp h
    exact ⟨⟨b, hb⟩, c, hc⟩
  · rintro ⟨⟨b, hb⟩, c, hc⟩
    exact ⟨_, bind_eq_ok.mpr ⟨b, hb, bind_eq_ok.mpr ⟨c, hc, rfl⟩⟩⟩

theorem dumpsMembers_iff :
    (∃ text, dumpsMembers entries = .ok text) ↔ ∀ entry ∈ entries, Written entry.2 := by
  induction entries with
  | nil => exact ⟨fun _ => nofun, fun _ => ⟨_, rfl⟩⟩
  | cons entry entries ih =>
    rw [List.forall_mem_cons, ← ih]
    exact both_ok

theorem written_dict : Written (.dict entries) ↔ ∀ entry ∈ entries, Written entry.2 := by
  cases entries with
  | nil => exact ⟨fun _ => nofun, fun _ => ⟨_, rfl⟩⟩
  | cons entry entries =>
    rw [List.forall_mem_cons, ← dumpsMembers_iff]
    exact both_ok

/-! ### Entries under strings -/

theorem codes_injective : Function.Injective codes := by
  intro s t h
  have hlist : s.toList = t.toList := List.map_injective_iff.mpr (fun a b hab => Char.toNat_inj.mp hab) h
  exact String.toList_injective hlist

def find (entries : List (Text × Json)) (key : String) : Option Json := entries.lookup (codes key)

theorem find_nil (key : String) : find [] key = none := rfl

theorem find_cons (k key : String) (member : Json) (entries : List (Text × Json)) :
    find ((codes k, member) :: entries) key = if k = key then some member else find entries key := by
  unfold find
  rw [List.lookup_cons]
  by_cases h : k = key
  · simp [h]
  · have hne : codes key ≠ codes k := fun heq => h (codes_injective heq).symm
    simp [h, beq_eq_false_iff_ne.mpr hne]

theorem find_append (a b : List (Text × Json)) (key : String) :
    find (a ++ b) key = (find a key).or (find b key) :=
  List.lookup_append

end Json

end CountyFlow.Lib
