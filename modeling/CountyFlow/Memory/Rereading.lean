import CountyFlow.Memory.Proposal

/-!
# Stored proposals read again

`from_dict` builds a command from the dictionary of another one, and the constructor checks and normalises
all fields again.
-/

namespace CountyFlow.Memory

open CountyFlow.Core (Number State Value)
open CountyFlow.Security (Text required required_value required_ok)
open CountyFlow.Worker.Db (strip isSpace)

variable {ε α β : Type} {maximum : ℕ}

namespace Proposal

theorem ok_bind (a : α) (f : α → Except ε β) : (Except.ok a >>= f) = f a := rfl

theorem bind_ok {x : Except ε α} {f : α → Except ε β} {b : β} (h : (x >>= f) = .ok b) :
    ∃ a, x = .ok a ∧ f a = .ok b := by
  cases x with
  | error e => cases h
  | ok a => exact ⟨a, rfl, h⟩

/-! ### Names and texts -/

theorem enumCategory_value (category : MemoryCategory) : enumCategory category.value = .ok category := by
  cases category <;> rfl

theorem enumFactKind_value (kind : MemoryFactKind) : enumFactKind kind.value = .ok kind := by
  cases kind <;> rfl

theorem targetsOf_sortedTargets {targets : Finset MemoryTarget} (h : targets ≠ ∅) :
    targetsOf (sortedTargets targets) = .ok ⟨targets, h⟩ := by
  have hmembers : (sortedTargets targets).mapM enumTarget =
      .ok ([MemoryTarget.graph, .vector].filter (· ∈ targets)) := by
    unfold sortedTargets
    by_cases hgraph : MemoryTarget.graph ∈ targets <;> by_cases hvector : MemoryTarget.vector ∈ targets <;>
      simp [hgraph, hvector] <;> rfl
  have hset : ([MemoryTarget.graph, .vector].filter (· ∈ targets)).toFinset = targets := by
    ext target
    cases target <;> simp
  unfold targetsOf
  rw [hmembers, ok_bind]
  simp only [hset]
  exact dif_pos h

theorem requiredText_value (t : Text maximum) (fieldName : String) :
    requiredText t.value fieldName maximum = .ok t := by
  unfold requiredText
  rw [required_value]
  rfl

theorem requiredText_ok {value fieldName : String} {t : Text maximum}
    (h : requiredText value fieldName maximum = .ok t) : t.value = strip value := by
  unfold requiredText at h
  cases hrequired : required value fieldName maximum with
  | error e =>
    rw [hrequired] at h
    cases h
  | ok t' =>
    rw [hrequired] at h
    obtain rfl := Except.ok.inj h
    exact required_ok hrequired

theorem optionalText_value (t : Option (Text maximum)) (fieldName : String) :
    optionalText ((t.map Text.value).filter (· ≠ "")) fieldName maximum = .ok t := by
  cases t with
  | none => rfl
  | some t =>
    have hfilter : (some t.value).filter (· ≠ "") = some t.value := by simp [t.nonempty]
    have hstrip : ¬ strip t.value = "" := by
      rw [t.stripped]
      exact t.nonempty
    rw [Option.map_some, hfilter]
    simp only [optionalText, if_neg hstrip, requiredText_value]
    rfl

variable {isWord : Char → Bool} {credentials : String → Option Bool}

/-- A sanitised text as one that has been checked, where it is short enough. -/
def AuditText.text (r : AuditText isWord) {maximum : ℕ} (h : r.value.length ≤ maximum) : Text maximum :=
  ⟨r.value, r.stripped, r.nonempty, h⟩

theorem sanitized_value (t : Text maximum) :
    (sanitized isWord t).value = sanitizeAuditText isWord t.value := rfl

theorem sanitized_text (r : AuditText isWord) (h : r.value.length ≤ maximum) :
    sanitized isWord (r.text h) = r :=
  AuditText.ext r.sanitized

theorem safeReference_safe {ref : Option (Text 512)} (h : ∀ text ∈ ref, credentials text.value = some false) :
    safeReference credentials ref = .ok ⟨ref, h⟩ := by
  have hvalidate : validateSafeReference credentials ref = .ok ref := by
    cases ref with
    | none => rfl
    | some text => simp [validateSafeReference, h text rfl]
  unfold safeReference
  split
  · rename_i e herror
    rw [hvalidate] at herror
    cases herror
  · rename_i ref' hok
    rw [hvalidate] at hok
    obtain rfl := Except.ok.inj hok
    rfl

/-! ### Confidences -/

theorem strip_of_plain {text : String} (h : ∀ c ∈ text.toList, Number.Plain c) : strip text = text := by
  have hspace : ∀ c ∈ text.toList, isSpace c = false := by
    intro c hc
    rcases h c hc with hdigit | hsign
    · simp only [Char.isDigit, Bool.and_eq_true, decide_eq_true_eq, ge_iff_le] at hdigit
      have hlow : 48 ≤ c.toNat := hdigit.1
      have hhigh : c.toNat ≤ 57 := hdigit.2
      simp only [isSpace, List.mem_cons, List.not_mem_nil, or_false, decide_eq_false_iff_not]
      omega
    · have hall : ∀ c ∈ ['.', 'E', '+', '-'], (!isSpace c) = true := List.all_eq_true.mp (by decide)
      simpa using hall c hsign
  rw [strip_eq_self]
  exact ⟨fun c hc => hspace c (List.mem_of_mem_head? hc), fun c hc => hspace c (List.mem_of_mem_getLast? hc)⟩

theorem Confidence.coefficient_eq {c : Confidence} (h : 0 < c.number.exponent) :
    c.number.coefficient = 0 := by
  obtain ⟨d, hsize, hbounded⟩ := c
  have hexponent : 0 < d.exponent := h
  simp only [inUnit, Number.le, decide_eq_true_eq, Option.some.injEq, min_eq_left hexponent.le,
    min_eq_right hexponent.le, Core.Decimal.atExponent, sub_zero] at hbounded
  obtain ⟨hlow, hhigh⟩ := hbounded
  have hpower : (2 : ℤ) ≤ 10 ^ d.exponent.toNat := by
    obtain ⟨n, hn⟩ : ∃ n, d.exponent.toNat = n + 1 := ⟨d.exponent.toNat - 1, by omega⟩
    rw [hn, pow_succ]
    have hpos : (1 : ℤ) ≤ 10 ^ n := one_le_pow₀ (by decide)
    omega
  by_contra hne
  have hcoefficient : (1 : ℤ) ≤ d.coefficient := by
    have hpos : 0 < d.coefficient := Nat.pos_of_ne_zero hne
    omega
  -- either way the product is too far from zero
  have hproduct : (2 : ℤ) ≤ d.coefficient * 10 ^ d.exponent.toNat := by nlinarith
  cases hsign : d.negative
  · simp [hsign] at hhigh
    omega
  · simp [hsign] at hlow
    omega

/-- The confidence that is read: a zero has lost its exponent. -/
def Confidence.reread (c : Confidence) : Confidence :=
  if h : c.number.exponent ≤ 0 then c
  else
    ⟨⟨c.number.negative, 0, 0⟩, by cases c.number.negative <;> decide, by cases c.number.negative <;> decide⟩

theorem Confidence.exponent_reread (c : Confidence) : c.reread.number.exponent ≤ 0 := by
  unfold Confidence.reread
  split
  · assumption
  · exact le_rfl

theorem Confidence.fixed_reread (c : Confidence) : c.reread.number.fixed = c.number.fixed := by
  unfold Confidence.reread
  split
  · rfl
  · rename_i h
    have hpositive : 0 < c.number.exponent := not_le.mp h
    have hzero := Confidence.coefficient_eq hpositive
    have hdigits : Nat.toDigits 10 0 = ['0'] := by decide
    have hpointed : Core.Decimal.pointed ['0'] (0 + (1 : ℕ)) = ['0'] := by decide
    simp only [Core.Decimal.fixed, hzero, true_and, lt_irrefl, if_false, if_pos hpositive, Core.Decimal.place,
      Core.Decimal.digits, hdigits, List.length_singleton, hpointed]
    rfl

theorem Confidence.same_reread (c : Confidence) : c.reread.number.same c.number = true := by
  unfold Confidence.reread
  split
  · simp [Core.Decimal.same]
  · rename_i h
    have hzero := Confidence.coefficient_eq (not_le.mp h)
    simp [Core.Decimal.same, Core.Decimal.atExponent, hzero]

theorem decimalOf_fixed (c : Confidence) : decimalOf c.number.fixed = some (.finite c.reread.number) := by
  rw [← c.fixed_reread, decimalOf, strip_of_plain (Number.plain_fixed _),
    Number.ofText_fixed c.exponent_reread c.reread.size]

theorem confidenceOf_str (c : Confidence) : confidenceOf c.number.str = .ok c := by
  have hread : decimalOf c.number.str = some (.finite c.number) := by
    rw [decimalOf, strip_of_plain (Number.plain_str _), Number.ofText_str c.size]
  unfold confidenceOf
  split
  · rename_i hnone
    rw [hread] at hnone
    cases hnone
  · rename_i d hd
    rw [hread] at hd
    cases hd
    exact dif_pos c.bounded
  · rename_i number hne hnumber
    rw [hread] at hnumber
    cases hnumber
    exact absurd rfl (hne c.number)

/-! ### Times -/

end Proposal

namespace AwareDatetime

/-- The time that is read: the same clock, in a zone with the same offset. -/
def reread (t : AwareDatetime) : AwareDatetime := ⟨t.clock, .fixed t.zone.offset⟩

theorem isoformat_reread (t : AwareDatetime) : isoformat t.reread = isoformat t := rfl

theorem isoformat_ne_empty (t : AwareDatetime) : isoformat t ≠ "" := by
  intro h
  have hlist := congrArg String.toList h
  simp only [isoformat, String.toList_ofList] at hlist
  have hlength := congrArg List.length hlist
  rw [List.length_append, CountyFlow.Security.length_front] at hlength
  simp at hlength

end AwareDatetime

namespace Proposal

theorem readTime_isoformat (t : AwareDatetime) : readTime (isoformat t) = .ok t.reread.given := by
  unfold readTime
  rw [fromisoformat_isoformat]
  rfl

theorem readOptionalTime_isoformat (t : Option AwareDatetime) :
    readOptionalTime (t.map isoformat) = .ok (t.map fun t => t.reread.given) := by
  cases t with
  | none => rfl
  | some t =>
    have hfilter : (some (isoformat t)).filter (· ≠ "") = some (isoformat t) := by simp [t.isoformat_ne_empty]
    rw [Option.map_some, readOptionalTime, hfilter]
    simp only [readTime_isoformat]
    rfl

theorem awareOption_given (t : Option AwareDatetime) (fieldName : String) :
    awareOption (t.map fun t => t.reread.given) fieldName = .ok (t.map AwareDatetime.reread) := by
  cases t <;> rfl

/-! ### The command that is read -/

variable {isWord : Char → Bool} {credentials : String → Option Bool}

def Fields.reread (fields : Fields isWord credentials) : Fields isWord credentials :=
  { fields with
    confidence := fields.confidence.reread
    incomingAt := fields.incomingAt.reread
    expiresAt := fields.expiresAt.map AwareDatetime.reread
    evidenceObservedAt := fields.evidenceObservedAt.map AwareDatetime.reread }

theorem Fields.toDict_reread (fields : Fields isWord credentials) (valueJson : State) :
    fields.reread.toDict valueJson = fields.toDict valueJson := by
  have hmap (t : Option AwareDatetime) : (t.map AwareDatetime.reread).map isoformat = t.map isoformat := by
    rw [Option.map_map]
    rfl
  simp only [toDict, reread, Confidence.fixed_reread, hmap, AwareDatetime.isoformat_reread]

namespace Fields

/-- The arguments that are read of the fields, with the two texts that are to be sanitised. -/
def arguments (fields : Fields isWord credentials) (valueJson : State) (reason : String)
    (evidenceText : Option String) : Arguments where
  idempotencyKey := fields.idempotencyKey.value
  category := fields.category.value
  factKind := fields.factKind.value
  subjectType := fields.subjectType.value
  subjectId := fields.subjectId.value
  predicate := fields.predicate.value
  valueJson := Value.givenEntries valueJson
  confidence := fields.confidence.reread.number.str
  incomingAt := fields.incomingAt.reread.given
  sourceType := fields.sourceType.value
  sourceId := fields.sourceId.value
  operatorId := fields.operatorId.value
  humanConfirmed := fields.humanConfirmed
  reason := reason
  targets := sortedTargets fields.targets
  objectType := (fields.objectType.map Text.value).filter (· ≠ "")
  objectId := (fields.objectId.map Text.value).filter (· ≠ "")
  expectedVersion := fields.expectedVersion
  expiresAt := fields.expiresAt.map fun t => t.reread.given
  evidenceText := evidenceText.filter (· ≠ "")
  evidenceRef := (fields.evidenceRef.map Text.value).filter (· ≠ "")
  evidenceObservedAt := fields.evidenceObservedAt.map fun t => t.reread.given
  vectorMemoryId := (fields.vectorMemoryId.map Text.value).filter (· ≠ "")
  graphFactKey := (fields.graphFactKey.map Text.value).filter (· ≠ "")

theorem normalize_arguments (fields : Fields isWord credentials) (valueJson : State) (reason : Text 512)
    (evidenceText : Option (Text 2000)) :
    normalize isWord credentials (fields.arguments valueJson reason.value (evidenceText.map Text.value)) =
      .ok { fields.reread with
        reason := sanitized isWord reason
        evidenceText := evidenceText.map (sanitized isWord) } := by
  have hsafe : safeReference credentials fields.evidenceRef = .ok ⟨fields.evidenceRef, fields.safe⟩ :=
    safeReference_safe fields.safe
  unfold normalize
  simp only [arguments, enumCategory_value, enumFactKind_value, targetsOf_sortedTargets fields.targets_ne,
    requiredText_value, optionalText_value, confidenceOf_str, awareOption_given, ok_bind, hsafe]
  rfl

end Fields

variable {command : Command isWord credentials}

namespace Command

def reread (command : Command isWord credentials) : Command isWord credentials where
  fields := command.fields.reread
  valueJson := command.valueJson
  version_pos := command.version_pos
  evidence := command.evidence
  object := command.object
  value_copied := command.value_copied
  value_size := command.value_size
  proposed_size := by
    rw [Fields.toDict_reread]
    exact command.proposed_size

theorem toDict_reread (command : Command isWord credentials) : command.reread.toDict = command.toDict :=
  command.fields.toDict_reread command.valueJson

def arguments (command : Command isWord credentials) : Arguments :=
  command.fields.arguments command.valueJson command.fields.reason.value
    (command.fields.evidenceText.map AuditText.value)

theorem arguments_toDict (command : Command isWord credentials) :
    command.toDict.arguments = .ok command.arguments := by
  have hconfidence : decimalOf command.toDict.confidence =
    some (.finite command.fields.confidence.reread.number) :=
    decimalOf_fixed command.fields.confidence
  have hincoming : readTime command.toDict.incomingAt = .ok command.fields.incomingAt.reread.given :=
    readTime_isoformat command.fields.incomingAt
  have hexpires : readOptionalTime command.toDict.expiresAt =
      .ok (command.fields.expiresAt.map fun t => t.reread.given) := readOptionalTime_isoformat _
  have hobserved : readOptionalTime command.toDict.evidenceObservedAt =
      .ok (command.fields.evidenceObservedAt.map fun t => t.reread.given) := readOptionalTime_isoformat _
  unfold StoredFact.arguments
  rw [hconfidence, hincoming, hexpires, hobserved]
  rfl

/-- The sanitised texts are as short as the constructor asks for. -/
def Short (command : Command isWord credentials) : Prop :=
  command.fields.reason.value.length ≤ 512 ∧ ∀ text ∈ command.fields.evidenceText, text.value.length ≤ 2000

theorem normalize_again (h : command.Short) :
    normalize isWord credentials command.arguments = .ok command.fields.reread := by
  obtain ⟨text, htext, hevidence⟩ : ∃ text : Option (Text 2000),
      text.map Text.value = command.fields.evidenceText.map AuditText.value ∧
        text.map (sanitized isWord) = command.fields.evidenceText := by
    cases hgiven : command.fields.evidenceText with
    | none => exact ⟨none, rfl, rfl⟩
    | some text =>
      refine ⟨some (text.text (h.2 text hgiven)), rfl, ?_⟩
      rw [Option.map_some, sanitized_text]
  have hnormal := command.fields.normalize_arguments command.valueJson (command.fields.reason.text h.1) text
  rw [htext, hevidence, sanitized_text] at hnormal
  exact hnormal

theorem size_again (command : Command isWord credentials) :
    canonicalSize (.dict (Value.givenEntries command.valueJson)) =
    canonicalSize (Value.dict command.valueJson).given :=
  rfl

theorem complete_self (command : Command isWord credentials) :
    complete command.fields (Value.givenEntries command.valueJson) = .ok command := by
  obtain ⟨n, hn, hle⟩ := command.value_size
  obtain ⟨proposed, hproposed, hfits⟩ := command.proposed_size
  unfold complete
  rw [dif_neg command.version_pos, dif_neg command.evidence, dif_neg command.object]
  split
  · rename_i hnone
    rw [size_again, Option.mem_def.mp hn] at hnone
    cases hnone
  · rename_i size hsize
    rw [size_again, Option.mem_def.mp hn] at hsize
    obtain rfl := Option.some.inj hsize
    rw [dif_neg (not_lt.mpr hle)]
    split
    · rename_i hnone
      rw [command.value_copied] at hnone
      cases hnone
    · rename_i valueJson hcopy
      obtain rfl : command.valueJson = valueJson := Option.some.inj (command.value_copied.symm.trans hcopy)
      split
      · rename_i hnone
        rw [Option.mem_def.mp hproposed] at hnone
        cases hnone
      · rename_i proposed' hproposed'
        obtain rfl : proposed = proposed' :=
          Option.some.inj ((Option.mem_def.mp hproposed).symm.trans hproposed')
        exact dif_neg (not_lt.mpr hfits)

theorem fromDict_toDict (h : command.Short) :
    fromDict isWord credentials command.toDict = .ok command.reread := by
  unfold fromDict construct
  rw [arguments_toDict, ok_bind, normalize_again h, ok_bind]
  exact complete_self command.reread

theorem fromDict_long_reason (h : 512 < command.fields.reason.value.length) :
    fromDict isWord credentials command.toDict = .error (.message "reason exceeds 512 characters") := by
  have hreason : requiredText command.fields.reason.value "reason" 512 =
      .error (.message "reason exceeds 512 characters") := by
    have hempty : ¬ strip command.fields.reason.value = "" := by
      rw [command.fields.reason.stripped]
      exact command.fields.reason.nonempty
    have hlong : 512 < (strip command.fields.reason.value).length := by
      rw [command.fields.reason.stripped]
      exact h
    unfold requiredText required
    rw [dif_neg hempty, dif_pos hlong]
    rfl
  unfold fromDict construct
  rw [arguments_toDict, ok_bind]
  unfold normalize
  simp only [arguments, Fields.arguments, enumCategory_value, enumFactKind_value,
    targetsOf_sortedTargets command.fields.targets_ne, requiredText_value, ok_bind, hreason]
  rfl

/-! ### Equality and identity -/

theorem sameOption_reread (t : Option AwareDatetime) :
    sameOption AwareDatetime.equals (t.map AwareDatetime.reread) t = true ↔ ∀ time ∈ t,
    time.zone.folds = false := by
  cases t with
  | none => simp [sameOption]
  | some t =>
    have hequals : t.reread.equals t = !t.zone.folds := equals_read t
    simp [sameOption, hequals]

theorem equals_reread (command : Command isWord credentials) : command.reread.equals command = true ↔
    command.fields.incomingAt.zone.folds = false ∧
    (∀ time ∈ command.fields.expiresAt, time.zone.folds = false) ∧
      ∀ time ∈ command.fields.evidenceObservedAt, time.zone.folds = false := by
  have hconfidence := command.fields.confidence.same_reread
  have hincoming : command.fields.incomingAt.reread.equals command.fields.incomingAt =
      !command.fields.incomingAt.zone.folds := equals_read _
  simp only [equals, reread, Fields.reread, hconfidence, hincoming, sameOption_reread, Bool.not_eq_true',
    decide_eq_true_eq, true_and, and_true]

theorem fingerprints_reread (sha256 : String → String) (command : Command isWord credentials) :
    command.reread.buildFactKey sha256 = command.buildFactKey sha256 ∧
      command.reread.contentFingerprint sha256 = command.contentFingerprint sha256 ∧
      command.reread.payloadFingerprint sha256 = command.payloadFingerprint sha256 ∧
      command.reread.evidenceFingerprint sha256 = command.evidenceFingerprint sha256 := by
  have hvalue : command.reread.valueJson = command.valueJson := rfl
  have hkind : command.reread.fields.factKind = command.fields.factKind := rfl
  refine ⟨?_, ?_, ?_, ?_⟩
  · rw [buildFactKey, buildFactKey, factIdentity, factIdentity, toDict_reread, hkind]
  · rw [contentFingerprint, contentFingerprint, toDict_reread, hvalue]
  · rw [payloadFingerprint, payloadFingerprint, toDict_reread]
  · rw [evidenceFingerprint, evidenceFingerprint, toDict_reread]

theorem exists_factKey (sha256 : String → String) (command : Command isWord credentials) :
    ∃ key, command.buildFactKey sha256 = some key := by
  have hoption (text : Option String) : (optionValue text).given.canonical.isSome := by
    cases text <;> rfl
  have htext (text : String) : (Value.str text).given.canonical.isSome := rfl
  have hcanonical : (Value.dict command.factIdentity).given.canonical.isSome := by
    apply Core.Given.canonical_dict
    unfold factIdentity
    split <;> simp [hoption, htext]
  obtain ⟨text, htext⟩ := Option.isSome_iff_exists.mp hcanonical
  exact ⟨"smf_" ++ sha256 (String.ofList text), by simp [buildFactKey, digest, htext]⟩

end Command

end Proposal

end CountyFlow.Memory
