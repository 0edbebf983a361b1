import CountyFlow.Core.Value

/-!
# Dictionaries and strict schemas

`Value.get` is `dict.get` of a value, `State.update` is `dict.update`, `State.pick` keeps some keys.
`Schema` is a pydantic model with `ConfigDict(extra="forbid", strict=True)`; `Schema.validate` is
`model_validate(value).model_dump(mode="json")`, `none` where a `ValidationError` is raised, and
`Schema.view` is what a reader of the schema sees of a value.
-/

namespace CountyFlow.Core

/-! ### Dictionaries -/

namespace Value

/-- `value.get(key)` of a dictionary. -/
def get : Value → String → Value
  | .dict entries, key => State.get entries key
  | _, _ => .none

def items : Value → List Value
  | .list items => items
  | _ => []

/-- `isinstance(value, Mapping)`. -/
def isDict : Value → Bool
  | .dict _ => true
  | _ => false

@[simp] theorem get_dict (entries : State) (key : String) :
    (dict entries).get key = State.get entries key := rfl

@[simp] theorem get_none (key : String) : Value.none.get key = .none := rfl

@[simp] theorem items_list (items : List Value) : (list items).items = items := rfl

@[simp] theorem items_none : Value.none.items = [] := rfl

@[simp] theorem isDict_dict (entries : State) : (dict entries).isDict = true := rfl

@[simp] theorem isDict_none : Value.none.isDict = false := rfl

end Value

namespace State

@[simp] theorem get_nil (key : String) : get [] key = .none := rfl

/-- `state.get(key, default)`. -/
def getOr (s : State) (key : String) (default : Value) : Value := (s.lookup key).getD default

/-- `state[key] = value`. -/
def set : State → String → Value → State
  | [], key, value => [(key, value)]
  | (k, v) :: s, key, value => if k = key then (k, value) :: s else (k, v) :: set s key value

/-- `state.update(patch)`. -/
def update (s patch : State) : State := patch.foldl (fun s entry => s.set entry.1 entry.2) s

/-- `{key: state[key] for key in keys if key in state}`. -/
def pick (s : State) (keys : List String) : State :=
  keys.filterMap fun key => (s.lookup key).map fun value => (key, value)

theorem lookup_set (s : State) (key : String) (value : Value) (key' : String) :
    (s.set key value).lookup key' = if key' = key then some value else s.lookup key' := by
  induction s with
  | nil =>
    by_cases h : key' = key
    · simp [set, h]
    · simp [set, List.lookup_cons, h, beq_eq_false_iff_ne.mpr h]
  | cons entry s ih =>
    obtain ⟨k, v⟩ := entry
    by_cases hk : k = key
    · subst hk
      by_cases h : key' = k
      · simp [set, h]
      · simp [set, List.lookup_cons, h, beq_eq_false_iff_ne.mpr h]
    · simp only [set, if_neg hk, List.lookup_cons, ih]
      by_cases h : key' = k
      · subst h
        simp [hk]
      · simp [beq_eq_false_iff_ne.mpr h]

theorem lookup_update (s patch : State) (hpatch : (patch.map Prod.fst).Nodup) (key : String) :
    (s.update patch).lookup key =
      if key ∈ patch.map Prod.fst then patch.lookup key else s.lookup key := by
  induction patch generalizing s with
  | nil => simp [update]
  | cons entry patch ih =>
    obtain ⟨k, v⟩ := entry
    rw [List.map_cons, List.nodup_cons] at hpatch
    show ((s.set k v).update patch).lookup key = _
    rw [ih _ hpatch.2, lookup_set, List.map_cons]
    by_cases h : key = k
    · subst h
      simp [hpatch.1]
    · simp only [List.mem_cons, h, false_or, if_false, List.lookup_cons,
        beq_eq_false_iff_ne.mpr h]

theorem getOr_update (s patch : State) (hpatch : (patch.map Prod.fst).Nodup) (key : String)
    (default : Value) :
    (s.update patch).getOr key default =
      if key ∈ patch.map Prod.fst then patch.getOr key default else s.getOr key default := by
  unfold getOr
  rw [lookup_update s patch hpatch]
  split <;> rfl

theorem getOr_cons (k : String) (v : Value) (s : State) (key : String) (default : Value) :
    getOr ((k, v) :: s) key default = if key = k then v else getOr s key default := by
  unfold getOr
  rw [List.lookup_cons]
  by_cases h : key = k
  · simp [h]
  · simp [h, beq_eq_false_iff_ne.mpr h]

theorem get_cons (k : String) (v : Value) (s : State) (key : String) :
    get ((k, v) :: s) key = if key = k then v else get s key := getOr_cons k v s key .none

theorem lookup_pick (s : State) (keys : List String) (key : String) :
    (s.pick keys).lookup key = if key ∈ keys then s.lookup key else none := by
  induction keys with
  | nil => rfl
  | cons k keys ih =>
    unfold pick at ih ⊢
    by_cases h : key = k
    · subst h
      cases hs : s.lookup key with
      | none => simp [hs, ih]
      | some value => simp [hs]
    · cases hs : s.lookup k with
      | none => simp [hs, ih, h]
      | some value => simp [hs, ih, h, List.lookup_cons, beq_eq_false_iff_ne.mpr h]

end State

/-! ### Strict schemas -/

/-- The type of a field.  A field of a model has a name, a type, and a default unless it is
required. -/
inductive Schema where
  | str
  | int
  | bool
  | literal (options : List String)
  | optional (type : Schema)
  | list (type : Schema)
  | model (fields : List (String × Schema × Option Value))

variable {a b : Value} {fields : List (String × Schema × Option Value)} {name : String}
  {entries out : State}

namespace Schema

def names (fields : List (String × Schema × Option Value)) : List String := fields.map Prod.fst

mutual

/-- `model_validate(value).model_dump(mode="json")`, under `strict=True` and `extra="forbid"`. -/
def validate : Schema → Value → Option Value
  | .str, value =>
    match value with
    | .str s => some (.str s)
    | _ => none
  | .int, value =>
    match value with
    | .int z => some (.int z)
    | _ => none
  | .bool, value =>
    match value with
    | .bool b => some (.bool b)
    | _ => none
  | .literal options, value =>
    match value with
    | .str s => if s ∈ options then some (.str s) else none
    | _ => none
  | .optional type, value => if value = .none then some .none else validate type value
  | .list type, value =>
    match value with
    | .list items => (items.mapM (validate type)).map .list
    | _ => none
  | .model fields, value =>
    match value with
    | .dict entries =>
      if entries.all fun entry => entry.1 ∈ names fields then
        (validateFields fields entries).map .dict
      else none
    | _ => none

/-- The fields in their order, each with its value or its default. -/
def validateFields : List (String × Schema × Option Value) → State → Option State
  | [], _ => some []
  | (name, type, default) :: fields, entries =>
    ((match entries.lookup name with
      | some value => validate type value
      | none => default).bind fun value =>
        (validateFields fields entries).map fun values => (name, value) :: values)

end

mutual

/-- What a schema shows of a value: the values under the names of a model, the items of a list.  A
missing object shows no values, a missing list no items. -/
def view : Schema → Value → Value
  | .optional type, value => view type value
  | .list type, value => .list (value.items.map (view type))
  | .model fields, value => .dict (viewFields fields value)
  | _, value => value

def viewFields : List (String × Schema × Option Value) → Value → State
  | [], _ => []
  | (name, type, _) :: fields, value =>
    (name, view type (value.get name)) :: viewFields fields value

end

mutual

/-- Names are used once, and a default passes the check of its field and shows nothing. -/
def wellFormed : Schema → Bool
  | .optional type => wellFormed type
  | .list type => wellFormed type
  | .model fields => decide (names fields).Nodup && wellFormedFields fields
  | _ => true

def wellFormedFields : List (String × Schema × Option Value) → Bool
  | [] => true
  | (_, type, default) :: fields =>
    (wellFormed type && default.all fun value =>
      validate type value = some value && view type value = view type .none) &&
      wellFormedFields fields

end

theorem validateFields_congr (fields : List (String × Schema × Option Value)) {a b : State}
    (h : ∀ name ∈ names fields, a.lookup name = b.lookup name) :
    validateFields fields a = validateFields fields b := by
  induction fields with
  | nil => rfl
  | cons field fields ih =>
    obtain ⟨name, type, default⟩ := field
    have hname : a.lookup name = b.lookup name := h name (List.mem_cons_self ..)
    have hrest := ih fun n hn => h n (List.mem_cons_of_mem _ hn)
    simp only [validateFields, hname, hrest]

theorem viewFields_congr (fields : List (String × Schema × Option Value))
    (h : ∀ name ∈ names fields, a.get name = b.get name) : viewFields fields a = viewFields fields b := by
  induction fields with
  | nil => rfl
  | cons field fields ih =>
    obtain ⟨name, type, default⟩ := field
    have hname : a.get name = b.get name := h name (List.mem_cons_self ..)
    have hrest := ih fun n hn => h n (List.mem_cons_of_mem _ hn)
    simp only [viewFields, hname, hrest]

theorem viewFields_eq_map (fields : List (String × Schema × Option Value)) (value : Value) :
    viewFields fields value = fields.map fun field =>
      (field.1, view field.2.1 (value.get field.1)) := by
  induction fields with
  | nil => rfl
  | cons field fields ih =>
    obtain ⟨name, type, default⟩ := field
    rw [List.map_cons, ← ih]
    rfl

theorem view_field (h : view (.model fields) a = view (.model fields) b)
    (field : String × Schema × Option Value) (hfield : field ∈ fields) :
    view field.2.1 (a.get field.1) = view field.2.1 (b.get field.1) := by
  simp only [view, Value.dict.injEq, viewFields_eq_map] at h
  have heq := List.map_inj_left.mp h field hfield
  exact (Prod.mk.inj heq).2

theorem view_pick (fields : List (String × Schema × Option Value)) (entries : State) (keys : List String)
    (hkeys : ∀ name ∈ names fields, name ∈ keys) :
    view (.model fields) (.dict (entries.pick keys)) = view (.model fields) (.dict entries) := by
  simp only [view]
  congr 1
  apply viewFields_congr
  intro name hname
  show ((entries.pick keys).lookup name).getD .none = (entries.lookup name).getD .none
  rw [State.lookup_pick, if_pos (hkeys name hname)]

theorem validateFields_cons {type : Schema} {default : Option Value}
    (h : validateFields ((name, type, default) :: fields) entries = some out) :
    ∃ value values, out = (name, value) :: values ∧ validateFields fields entries = some values ∧
      ((∃ given, entries.lookup name = some given ∧ validate type given = some value) ∨
        (entries.lookup name = none ∧ default = some value)) := by
  rw [validateFields, Option.bind_eq_some_iff] at h
  obtain ⟨value, hvalue, hrest⟩ := h
  obtain ⟨values, hvalues, rfl⟩ := Option.map_eq_some_iff.mp hrest
  refine ⟨value, values, rfl, hvalues, ?_⟩
  cases hlookup : entries.lookup name with
  | none => exact .inr ⟨rfl, by simpa [hlookup] using hvalue⟩
  | some given => exact .inl ⟨given, rfl, by simpa [hlookup] using hvalue⟩

theorem validate_literal (options : List String) (s : String) :
    validate (.literal options) (.str s) = if s ∈ options then some (.str s) else none := rfl

theorem validate_list (type : Schema) (items : List Value) :
    validate (.list type) (.list items) = (items.mapM (validate type)).map .list := rfl

theorem isSome_mapM {α β : Type} (check : α → Option β) (items : List α) :
    (items.mapM check).isSome = true ↔ ∀ item ∈ items, (check item).isSome = true := by
  induction items with
  | nil => simp
  | cons item items ih =>
    rw [List.forall_mem_cons, ← ih, List.mapM_cons]
    cases check item with
    | none => simp
    | some out => cases items.mapM check <;> simp

theorem mapM_map_some {α β γ : Type} {f : β → Option γ} {g : α → β} {out : α → γ} {items : List α}
    (h : ∀ item ∈ items, f (g item) = some (out item)) : (items.map g).mapM f = some (items.map out) := by
  induction items with
  | nil => rfl
  | cons item items ih =>
    have hrest := ih fun other hother => h other (List.mem_cons_of_mem _ hother)
    rw [List.map_cons, List.mapM_cons, h item (List.mem_cons_self ..), hrest]
    rfl

theorem isSome_validateFields (fields : List (String × Schema × Option Value)) (entries : State) :
    (validateFields fields entries).isSome = fields.all fun field =>
      match entries.lookup field.1 with
      | some value => (field.2.1.validate value).isSome
      | none => field.2.2.isSome := by
  induction fields with
  | nil => rfl
  | cons field fields ih =>
    obtain ⟨name, type, default⟩ := field
    rw [List.all_cons, ← ih, validateFields]
    cases entries.lookup name with
    | none => cases default <;> simp
    | some value => cases h : type.validate value <;> simp [h]

theorem isSome_validate_model (fields : List (String × Schema × Option Value)) (entries : State) :
    (validate (.model fields) (.dict entries)).isSome =
      ((entries.all fun entry => entry.1 ∈ names fields) && fields.all fun field =>
        match entries.lookup field.1 with
        | some value => (field.2.1.validate value).isSome
        | none => field.2.2.isSome) := by
  simp only [validate]
  split
  next hnames => rw [Option.isSome_map, isSome_validateFields, hnames, Bool.true_and]
  next hnames => rw [Bool.eq_false_iff.mpr hnames, Bool.false_and, Option.isSome_none]

theorem names_validateFields (fields : List (String × Schema × Option Value))
    (h : validateFields fields entries = some out) : out.map Prod.fst = names fields := by
  induction fields generalizing out with
  | nil =>
    cases h
    rfl
  | cons field fields ih =>
    obtain ⟨name, type, default⟩ := field
    obtain ⟨value, values, rfl, hvalues, -⟩ := validateFields_cons h
    rw [List.map_cons, ih hvalues]
    rfl

theorem lookup_behind (hname : name ∉ names fields) (value : Value) (values : State) :
    ∀ key ∈ names fields, List.lookup key ((name, value) :: values) = values.lookup key := by
  intro key hkey
  have hne : key ≠ name := by
    rintro rfl
    exact hname hkey
  rw [List.lookup_cons, beq_eq_false_iff_ne.mpr hne]

theorem mapM_again {f : Value → Option Value} (hf : ∀ {a b : Value}, f a = some b → f b = some b)
    {items outs : List Value} (h : items.mapM f = some outs) : outs.mapM f = some outs := by
  induction items generalizing outs with
  | nil =>
    cases h
    rfl
  | cons item items ih =>
    simp only [List.mapM_cons, Option.bind_eq_bind, Option.bind_eq_some_iff] at h
    obtain ⟨first, hfirst, rest, hrest, hout⟩ := h
    cases hout
    simp [List.mapM_cons, hf hfirst, ih hrest]

mutual

/-- What validation lets out it lets in unchanged. -/
theorem validate_validated : ∀ (type : Schema), type.wellFormed = true → ∀ {value out : Value},
    validate type value = some out → validate type out = some out
  | .str, _, value, out, h => by
      cases value <;> cases h
      rfl
  | .int, _, value, out, h => by
      cases value <;> cases h
      rfl
  | .bool, _, value, out, h => by
      cases value <;> cases h
      rfl
  | .literal options, _, value, out, h => by
      cases value with
      | str s =>
        simp only [validate, Option.ite_none_right_eq_some] at h
        obtain ⟨hs, hout⟩ := h
        cases hout
        simp only [validate, if_pos hs]
      | _ => cases h
  | .optional type, hw, value, out, h => by
      have ih : ∀ {a b : Value}, validate type a = some b → validate type b = some b :=
        validate_validated type (by simpa [wellFormed] using hw)
      by_cases hvalue : value = .none
      · simp only [validate, if_pos hvalue] at h
        cases h
        simp [validate]
      · simp only [validate, if_neg hvalue] at h
        by_cases hout : out = .none
        · simp [validate, hout]
        · simp only [validate, if_neg hout]
          exact ih h
  | .list type, hw, value, out, h => by
      have ih : ∀ {a b : Value}, validate type a = some b → validate type b = some b :=
        validate_validated type (by simpa [wellFormed] using hw)
      cases value with
      | list items =>
        obtain ⟨outs, houts, rfl⟩ := Option.map_eq_some_iff.mp h
        simp only [validate, mapM_again ih houts, Option.map_some]
      | _ => cases h
  | .model fields, hw, value, out, h => by
      simp only [wellFormed, Bool.and_eq_true, decide_eq_true_eq] at hw
      cases value with
      | dict entries =>
        simp only [validate, Option.ite_none_right_eq_some] at h
        obtain ⟨-, h⟩ := h
        obtain ⟨outs, houts, rfl⟩ := Option.map_eq_some_iff.mp h
        have hnames : (outs.all fun entry => entry.1 ∈ names fields) = true := by
          rw [List.all_eq_true]
          intro entry hentry
          rw [decide_eq_true_eq, ← names_validateFields fields houts]
          exact List.mem_map_of_mem hentry
        simp only [validate, hnames, if_true]
        rw [validateFields_validated fields hw.2 hw.1 houts]
        rfl
      | _ => cases h

theorem validateFields_validated : ∀ (fields : List (String × Schema × Option Value)),
    wellFormedFields fields = true → (names fields).Nodup → ∀ {entries out : State},
    validateFields fields entries = some out → validateFields fields out = some out
  | [], _, _, entries, out, h => by
      cases h
      rfl
  | (name, type, default) :: fields, hw, hnodup, entries, out, h => by
      simp only [wellFormedFields, Bool.and_eq_true] at hw
      obtain ⟨⟨htype, hdefault⟩, hfields⟩ := hw
      rw [names, List.map_cons, List.nodup_cons] at hnodup
      obtain ⟨value, values, rfl, hvalues, hvalue⟩ := validateFields_cons h
      have hagain : validate type value = some value := by
        rcases hvalue with ⟨given, -, hgiven⟩ | ⟨-, rfl⟩
        · exact validate_validated type htype hgiven
        · simp only [Option.all_some, Bool.and_eq_true, decide_eq_true_eq] at hdefault
          exact hdefault.1
      have hrest : validateFields fields ((name, value) :: values) = some values := by
        rw [validateFields_congr fields (lookup_behind hnodup.1 value values)]
        exact validateFields_validated fields hfields hnodup.2 hvalues
      simp only [validateFields, List.lookup_cons_self, hagain, hrest, Option.bind_some,
        Option.map_some]

end

theorem map_view_mapM {f g : Value → Value} {check : Value → Option Value}
    (hcheck : ∀ {a b : Value}, check a = some b → f b = g a) {items outs : List Value}
    (h : items.mapM check = some outs) : outs.map f = items.map g := by
  induction items generalizing outs with
  | nil =>
    cases h
    rfl
  | cons item items ih =>
    simp only [List.mapM_cons, Option.bind_eq_bind, Option.bind_eq_some_iff] at h
    obtain ⟨first, hfirst, rest, hrest, hout⟩ := h
    cases hout
    rw [List.map_cons, List.map_cons, hcheck hfirst, ih hrest]

mutual

theorem view_validate : ∀ (type : Schema), type.wellFormed = true → ∀ {value out : Value},
    validate type value = some out → view type out = view type value
  | .str, _, value, out, h => by
      cases value <;> cases h
      rfl
  | .int, _, value, out, h => by
      cases value <;> cases h
      rfl
  | .bool, _, value, out, h => by
      cases value <;> cases h
      rfl
  | .literal options, _, value, out, h => by
      cases value with
      | str s =>
        simp only [validate, Option.ite_none_right_eq_some] at h
        cases h.2
        rfl
      | _ => cases h
  | .optional type, hw, value, out, h => by
      by_cases hvalue : value = .none
      · simp only [validate, if_pos hvalue] at h
        cases h
        rw [hvalue]
      · simp only [validate, if_neg hvalue] at h
        exact view_validate type (by simpa [wellFormed] using hw) h
  | .list type, hw, value, out, h => by
      have ih : ∀ {a b : Value}, validate type a = some b → view type b = view type a :=
        view_validate type (by simpa [wellFormed] using hw)
      cases value with
      | list items =>
        obtain ⟨outs, houts, rfl⟩ := Option.map_eq_some_iff.mp h
        simp only [view, Value.items_list, map_view_mapM ih houts]
      | _ => cases h
  | .model fields, hw, value, out, h => by
      simp only [wellFormed, Bool.and_eq_true, decide_eq_true_eq] at hw
      cases value with
      | dict entries =>
        simp only [validate, Option.ite_none_right_eq_some] at h
        obtain ⟨outs, houts, rfl⟩ := Option.map_eq_some_iff.mp h.2
        simp only [view, viewFields_validate fields hw.2 hw.1 houts]
      | _ => cases h

theorem viewFields_validate : ∀ (fields : List (String × Schema × Option Value)),
    wellFormedFields fields = true → (names fields).Nodup → ∀ {entries out : State},
    validateFields fields entries = some out →
      viewFields fields (.dict out) = viewFields fields (.dict entries)
  | [], _, _, _, _, _ => rfl
  | (name, type, default) :: fields, hw, hnodup, entries, out, h => by
      simp only [wellFormedFields, Bool.and_eq_true] at hw
      obtain ⟨⟨htype, hdefault⟩, hfields⟩ := hw
      rw [names, List.map_cons, List.nodup_cons] at hnodup
      obtain ⟨value, values, rfl, hvalues, hvalue⟩ := validateFields_cons h
      have hview : view type value = view type (State.get entries name) := by
        unfold State.get
        rcases hvalue with ⟨given, hlookup, hgiven⟩ | ⟨hlookup, rfl⟩
        · rw [hlookup]
          exact view_validate type htype hgiven
        · simp only [Option.all_some, Bool.and_eq_true, decide_eq_true_eq] at hdefault
          rw [hlookup]
          exact hdefault.2
      have hrest : viewFields fields (.dict ((name, value) :: values)) =
          viewFields fields (.dict entries) := by
        rw [← viewFields_validate fields hfields hnodup.2 hvalues]
        apply viewFields_congr
        intro key hkey
        show State.get ((name, value) :: values) key = State.get values key
        unfold State.get
        rw [lookup_behind hnodup.1 value values key hkey]
      simp only [viewFields, Value.get_dict, State.get_cons, if_true, hview, hrest]

end

end Schema

end CountyFlow.Core
