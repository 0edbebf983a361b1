import CountyFlow.Memory.Rereading

/-!
# When a stored proposal is reloaded

The constructor checks the lengths of the reason and of the evidence before it sanitises them, and a mark
can be longer than the secret it stands for.
-/

namespace CountyFlow.Memory.Proposal

open CountyFlow.Core (Number State Value)
open CountyFlow.Security (Text)
open CountyFlow.Worker.Db (strip)

variable {isWord : Char → Bool} {credentials : String → Option Bool}

/-! ### What the constructor keeps -/

structure Kept (args : Arguments) (fields : Fields isWord credentials) : Prop where
  reason : ∃ text, requiredText args.reason "reason" 512 = .ok text ∧ fields.reason = sanitized isWord text
  evidenceText : ∃ text, optionalText args.evidenceText "evidence_text" 2000 = .ok text ∧
    fields.evidenceText = text.map (sanitized isWord)
  incomingAt : args.incomingAt = fields.incomingAt.given
  expiresAt : args.expiresAt = fields.expiresAt.map AwareDatetime.given
  evidenceObservedAt : args.evidenceObservedAt = fields.evidenceObservedAt.map AwareDatetime.given

variable {fieldName : String}

theorem awareTime_ok {t : GivenDatetime} {a : AwareDatetime}
    (h : awareTime t fieldName = .ok a) : t = a.given := by
  unfold awareTime at h
  cases haware : aware t fieldName with
  | error e =>
    rw [haware] at h
    cases h
  | ok a' =>
    rw [haware] at h
    cases h
    exact aware_ok haware

theorem awareOption_ok {t : Option GivenDatetime} {a : Option AwareDatetime}
    (h : awareOption t fieldName = .ok a) : t = a.map AwareDatetime.given := by
  cases t with
  | none =>
    cases h
    rfl
  | some t =>
    simp only [awareOption] at h
    cases haware : awareTime t fieldName with
    | error e =>
      rw [haware] at h
      cases h
    | ok a' =>
      rw [haware] at h
      cases h
      rw [Option.map_some, awareTime_ok haware]

variable {args : Arguments} {fields : Fields isWord credentials}

theorem normalize_ok (h : normalize isWord credentials args = .ok fields) : Kept args fields := by
  unfold normalize at h
  obtain ⟨category, -, h⟩ := bind_ok h
  obtain ⟨factKind, -, h⟩ := bind_ok h
  obtain ⟨targets, -, h⟩ := bind_ok h
  obtain ⟨idempotencyKey, -, h⟩ := bind_ok h
  obtain ⟨subjectType, -, h⟩ := bind_ok h
  obtain ⟨subjectId, -, h⟩ := bind_ok h
  obtain ⟨predicate, -, h⟩ := bind_ok h
  obtain ⟨sourceType, -, h⟩ := bind_ok h
  obtain ⟨sourceId, -, h⟩ := bind_ok h
  obtain ⟨operatorId, -, h⟩ := bind_ok h
  obtain ⟨reason, hreason, h⟩ := bind_ok h
  obtain ⟨objectType, -, h⟩ := bind_ok h
  obtain ⟨objectId, -, h⟩ := bind_ok h
  obtain ⟨evidenceText, hevidence, h⟩ := bind_ok h
  obtain ⟨evidenceRef, -, h⟩ := bind_ok h
  obtain ⟨vectorMemoryId, -, h⟩ := bind_ok h
  obtain ⟨graphFactKey, -, h⟩ := bind_ok h
  obtain ⟨safeRef, -, h⟩ := bind_ok h
  obtain ⟨confidence, -, h⟩ := bind_ok h
  obtain ⟨incomingAt, hincoming, h⟩ := bind_ok h
  obtain ⟨expiresAt, hexpires, h⟩ := bind_ok h
  obtain ⟨evidenceObservedAt, hobserved, h⟩ := bind_ok h
  cases h
  exact ⟨⟨reason, hreason, rfl⟩, ⟨evidenceText, hevidence, rfl⟩, awareTime_ok hincoming,
    awareOption_ok hexpires, awareOption_ok hobserved⟩

variable {command : Command isWord credentials}

theorem complete_fields {entries : List (Core.Key × Core.Given)}
    (h : complete fields entries = .ok command) : command.fields = fields := by
  unfold complete at h
  split at h
  · cases h
  · split at h
    · cases h
    · split at h
      · cases h
      · split at h
        · cases h
        · split at h
          · cases h
          · split at h
            · cases h
            · split at h
              · cases h
              · split at h
                · cases h
                · cases h
                  rfl

theorem construct_kept (h : construct isWord credentials args = .ok command) : Kept args command.fields := by
  obtain ⟨fields, hnormalize, hcomplete⟩ := bind_ok h
  rw [complete_fields hcomplete]
  exact normalize_ok hnormalize

theorem short_of_fromDict {again : Command isWord credentials}
    (h : fromDict isWord credentials command.toDict = .ok again) : command.Short := by
  unfold fromDict at h
  rw [command.arguments_toDict, ok_bind] at h
  have hkept := construct_kept h
  constructor
  · obtain ⟨text, hreason, -⟩ := hkept.reason
    have hvalue : text.value = command.fields.reason.value :=
      (requiredText_ok hreason).trans command.fields.reason.stripped
    rw [← hvalue]
    exact text.bounded
  · intro text htext
    obtain ⟨text', hevidence, -⟩ := hkept.evidenceText
    have hgiven : command.arguments.evidenceText = some text.value := by
      simp only [Command.arguments, Fields.arguments, Option.mem_def.mp htext]
      simp [text.nonempty]
    have hstrip : ¬ strip text.value = "" := by
      rw [text.stripped]
      exact text.nonempty
    rw [hgiven] at hevidence
    simp only [optionalText, if_neg hstrip] at hevidence
    cases hrequired : requiredText text.value "evidence_text" 2000 with
    | error e =>
      rw [hrequired] at hevidence
      cases hevidence
    | ok checked =>
      have hvalue : checked.value = text.value := (requiredText_ok hrequired).trans text.stripped
      rw [← hvalue]
      exact checked.bounded

variable (isWord) in
/-- The texts that are sanitised are as short afterwards as they have to be before. -/
def Arguments.Short (args : Arguments) : Prop :=
  (sanitizeAuditText isWord (strip args.reason)).length ≤ 512 ∧
    ∀ text ∈ args.evidenceText, (sanitizeAuditText isWord (strip text)).length ≤ 2000

theorem sanitize_empty (isWord : Char → Bool) : sanitizeAuditText isWord "" = "" := rfl

theorem Kept.short_iff (h : Kept args command.fields) : command.Short ↔ args.Short isWord := by
  obtain ⟨reason, hreason, hreason'⟩ := h.reason
  obtain ⟨evidence, hevidence, hevidence'⟩ := h.evidenceText
  have hfirst : command.fields.reason.value = sanitizeAuditText isWord (strip args.reason) := by
    rw [hreason', sanitized_value, requiredText_ok hreason]
  have hsecond : (∀ text ∈ command.fields.evidenceText, text.value.length ≤ 2000) ↔
      ∀ text ∈ args.evidenceText, (sanitizeAuditText isWord (strip text)).length ≤ 2000 := by
    rw [hevidence']
    cases hgiven : args.evidenceText with
    | none =>
      rw [hgiven] at hevidence
      cases hevidence
      simp
    | some text =>
      rw [hgiven] at hevidence
      simp only [optionalText] at hevidence
      split at hevidence
      · rename_i hempty
        cases hevidence
        simp [hempty, sanitize_empty]
      · cases hrequired : requiredText text "evidence_text" 2000 with
        | error e =>
          rw [hrequired] at hevidence
          cases hevidence
        | ok checked =>
          rw [hrequired] at hevidence
          cases hevidence
          have hvalue := requiredText_ok hrequired
          simp [sanitized_value, hvalue]
  rw [Command.Short, hfirst, hsecond]
  exact Iff.rfl

def Arguments.times (args : Arguments) : List GivenDatetime :=
  args.incomingAt :: (args.expiresAt.toList ++ args.evidenceObservedAt.toList)

/-- The offset of a time depends on `fold`. -/
def folds (t : GivenDatetime) : Bool := t.zone.any Zone.folds

theorem Kept.times_iff (h : Kept args command.fields) :
    command.reread.equals command = true ↔ ∀ t ∈ args.times, folds t = false := by
  have hoption (t : Option AwareDatetime) : (∀ time ∈ t, time.zone.folds = false) ↔
      ∀ given ∈ (t.map AwareDatetime.given).toList, folds given = false := by
    cases t <;> simp [folds, AwareDatetime.given]
  rw [Command.equals_reread, hoption, hoption, ← h.expiresAt, ← h.evidenceObservedAt]
  unfold Arguments.times
  rw [List.forall_mem_cons, List.forall_mem_append, h.incomingAt]
  rfl

/-! ### Samples -/

theorem sum_reason (stored : StoredFact) (reason : String) :
    (({ stored with reason := reason }).entries.map Core.Given.entrySize).sum +
        Core.Given.entrySize ("reason", .str stored.reason) =
      (stored.entries.map Core.Given.entrySize).sum + Core.Given.entrySize ("reason", .str reason) := by
  simp only [StoredFact.entries, List.map_cons, List.map_nil, List.sum_cons, List.sum_nil]
  omega

theorem length_entries (stored : StoredFact) : stored.entries.length = 24 := rfl

def noCredentials : String → Option Bool := fun _ => some false

def sampleText (value : String) {maximum : ℕ} (h : strip value = value ∧ value ≠ "" ∧
    value.length ≤ maximum) :
    Text maximum := ⟨value, h.1, h.2.1, h.2.2⟩

/-- A status that a dispatcher has confirmed. -/
def sampleFields : Fields asciiWord noCredentials where
  idempotencyKey := sampleText "key-1" (by decide +kernel)
  category := .dispatch
  factKind := .attribute
  subjectType := sampleText "worker" (by decide +kernel)
  subjectId := sampleText "worker-1" (by decide +kernel)
  predicate := sampleText "status" (by decide +kernel)
  confidence := ⟨⟨false, 9000, -4⟩, by decide, by decide⟩
  incomingAt := ⟨⟨63870292800000000, by decide⟩, .fixed ⟨0, by decide⟩⟩
  sourceType := sampleText "operator" (by decide +kernel)
  sourceId := sampleText "operator-1" (by decide +kernel)
  operatorId := sampleText "operator-1" (by decide +kernel)
  humanConfirmed := true
  reason := sanitized asciiWord (sampleText "seen on site" (by decide +kernel) : Text 512)
  targets := {.graph}
  targets_ne := by decide
  objectType := none
  objectId := none
  expectedVersion := none
  expiresAt := none
  evidenceText := none
  evidenceRef := some (sampleText "report-1" (by decide +kernel))
  safe := fun _ _ => rfl
  evidenceObservedAt := none
  vectorMemoryId := none
  graphFactKey := none

def sampleValue : State := [("on_duty", .bool true)]

def sampleFieldsWith (reason : Text 512) : Fields asciiWord noCredentials :=
  { sampleFields.reread with
    reason := sanitized asciiWord reason
    evidenceText := none }

theorem sample_size {reason : Text 512}
    (h : Core.Given.entrySize ("reason", .str (sanitizeAuditText asciiWord reason.value)) ≤ 2000) :
    ∃ n ∈ canonicalSize (Value.dict ((sampleFieldsWith reason).toDict sampleValue).entries).given,
      n ≤ 32 * 1024 := by
  have hcanonical : (Value.dict
    ((sampleFieldsWith reason).toDict sampleValue).entries).given.canonical.isSome := by
    apply Core.Given.canonical_dict
    have hoption (text : Option String) : (optionValue text).given.canonical.isSome := by
      cases text <;> rfl
    have htext (text : String) : (Value.str text).given.canonical.isSome := rfl
    have hvalue : (Value.dict sampleValue).given.canonical.isSome := rfl
    have htargets : (Value.list [Value.str "GRAPH"]).given.canonical.isSome := rfl
    have hbool : (Value.bool true).given.canonical.isSome := rfl
    have hnone : Value.none.given.canonical.isSome := rfl
    simp only [StoredFact.entries, List.forall_mem_cons, hoption, htext, true_and]
    exact ⟨hvalue, hnone, hbool, htargets, by simp⟩
  obtain ⟨text, htext⟩ := Option.isSome_iff_exists.mp hcanonical
  refine ⟨Core.bytes text, by simp [canonicalSize, htext], ?_⟩
  have hbase : ((sampleFields.toDict sampleValue).entries.map Core.Given.entrySize).sum ≤ 1000 := by
    decide +kernel
  have hsum := sum_reason (sampleFields.toDict sampleValue) (sanitizeAuditText asciiWord reason.value)
  have hsame : ((sampleFieldsWith reason).toDict sampleValue).entries =
      ({ sampleFields.toDict sampleValue with reason := sanitizeAuditText asciiWord reason.value }).entries :=
      rfl
  rw [Core.Given.canonical_size _ htext, hsame]
  simp only [Value.given, Value.givenEntries_eq, Core.Given.size, Core.Given.sizeEntries_given,
    List.length_map]
  rw [length_entries]
  omega

def sampleCommand (reason : Text 512)
    (h : Core.Given.entrySize ("reason", .str (sanitizeAuditText asciiWord reason.value)) ≤ 2000) :
    Command asciiWord noCredentials where
  fields := sampleFieldsWith reason
  valueJson := sampleValue
  version_pos := by
    rintro ⟨version, hversion, -⟩
    cases hversion
  evidence := by
    rintro ⟨-, hnone⟩
    cases hnone
  object := by
    rintro ⟨hkind | hkind, -⟩ <;> cases hkind
  value_copied := rfl
  value_size := ⟨16, by decide +kernel, by decide⟩
  proposed_size := sample_size h

def sampleArguments (reason : Text 512) : Arguments := sampleFields.arguments sampleValue reason.value none

theorem construct_sample (reason : Text 512)
    (h : Core.Given.entrySize ("reason", .str (sanitizeAuditText asciiWord reason.value)) ≤ 2000) :
    construct asciiWord noCredentials (sampleArguments reason) = .ok (sampleCommand reason h) := by
  have hnormal := sampleFields.normalize_arguments sampleValue reason none
  unfold construct sampleArguments
  rw [show (none : Option String) = (none : Option (Text 2000)).map Text.value from rfl, hnormal, ok_bind]
  exact Command.complete_self (sampleCommand reason h)

/-- 512 characters, of which the first seven are a secret. -/
def longCharacters : List Char :=
  ['t', 'o', 'k', 'e', 'n', ':', 'x', ' '] ++ List.replicate 504 'a'

def longReason : Text 512 where
  value := String.ofList longCharacters
  stripped := by
    rw [strip_eq_self, String.toList_ofList]
    have hlast : longCharacters.getLast? = some 'a' := by
      rw [longCharacters, List.getLast?_append, List.getLast?_replicate]
      rfl
    constructor
    · intro c hc
      cases hc
      decide
    · intro c hc
      rw [hlast] at hc
      cases hc
      decide
  nonempty := by
    rw [Ne, String.ofList_eq_empty_iff]
    decide
  bounded := by
    rw [String.length_ofList, longCharacters, List.length_append, List.length_replicate]
    decide

theorem sanitize_longReason : sanitizeAuditText asciiWord longReason.value =
    String.ofList ("[REDACTED] ".toList ++ List.replicate 504 'a') := by
  have hfirst : Lib.sub asciiWord ('[' :: redacted) bearerPattern none 0 longCharacters = longCharacters := by
    decide +kernel
  have hsecond : Lib.sub asciiWord ('[' :: redacted) credentialPattern none 0 longCharacters =
      "[REDACTED] ".toList ++ List.replicate 504 'a' := by decide +kernel
  rw [sanitizeAuditText, longReason, String.toList_ofList, hfirst, hsecond]

theorem entrySize_str (key text : String) : Core.Given.entrySize (key, .str text) =
    Core.bytes (Core.quoted key) + 1 + Core.bytes (Core.quoted text) := rfl

theorem bytes_replicate (n : ℕ) : Core.bytes ((List.replicate n 'a').flatMap Core.escaped) = n := by
  have hone : Core.bytes (Core.escaped 'a') = 1 := by decide
  induction n with
  | zero => rfl
  | succ n ih => rw [List.replicate_succ, List.flatMap_cons, Core.bytes_append, ih, hone, Nat.add_comm]

theorem bytes_longReason :
    Core.bytes (Core.quoted (String.ofList ("[REDACTED] ".toList ++ List.replicate 504 'a'))) = 517 := by
  have hmark : Core.bytes ("[REDACTED] ".toList.flatMap Core.escaped) = 11 := by decide +kernel
  have hquote : ('"').utf8Size = 1 := by decide
  have hnil : Core.bytes [] = 0 := rfl
  rw [Core.quoted, String.toList_ofList, List.flatMap_append, Core.bytes_cons, Core.bytes_append,
    Core.bytes_append, Core.bytes_cons, bytes_replicate, hmark, hquote, hnil]

theorem longReason_size :
    Core.Given.entrySize ("reason", .str (sanitizeAuditText asciiWord longReason.value)) ≤ 2000 := by
  have hname : Core.bytes (Core.quoted "reason") = 8 := by decide +kernel
  rw [entrySize_str, sanitize_longReason, hname, bytes_longReason]
  omega

/-! ### When a stored command is reloaded -/

/-- What is stored of a command can be read again, says the same and has the same identity, and a mutation
with this key is taken up with it. -/
def Command.Reloads (sha256 : String → String) (command : Command isWord credentials) : Prop :=
  ∃ again, fromDict isWord credentials command.toDict = .ok again ∧ again.equals command = true ∧
    again.buildFactKey sha256 = command.buildFactKey sha256 ∧
    again.contentFingerprint sha256 = command.contentFingerprint sha256 ∧
    again.payloadFingerprint sha256 = command.payloadFingerprint sha256 ∧
    again.evidenceFingerprint sha256 = command.evidenceFingerprint sha256 ∧
    ∃ key, command.buildFactKey sha256 = some key ∧
      resume isWord credentials sha256 ⟨key, command.toDict⟩ = .ok again

/-- **When a stored command is reloaded**: exactly when its sanitised texts are still short enough and none
of its times has an offset that depends on `fold`. -/
theorem reloads_iff (isWord : Char → Bool) (credentials : String → Option Bool) (sha256 : String → String)
    (args : Arguments) (command : Command isWord credentials)
    (h : construct isWord credentials args = .ok command) :
    command.Reloads sha256 ↔ args.Short isWord ∧ ∀ t ∈ args.times, folds t = false := by
  have hkept := construct_kept h
  rw [← hkept.short_iff, ← hkept.times_iff]
  constructor
  · rintro ⟨again, hread, hequals, -⟩
    have hshort := short_of_fromDict hread
    rw [Command.fromDict_toDict hshort] at hread
    cases hread
    exact ⟨hshort, hequals⟩
  · rintro ⟨hshort, hequals⟩
    have hread := Command.fromDict_toDict hshort
    obtain ⟨hkey, hcontent, hpayload, hevidence⟩ := command.fingerprints_reread sha256
    obtain ⟨key, hkey'⟩ := command.exists_factKey sha256
    refine ⟨command.reread, hread, hequals, hkey, hcontent, hpayload, hevidence, key, hkey', ?_⟩
    unfold resume
    rw [hread]
    exact if_pos (hkey.trans hkey')

/-- A reason without a secret. -/
def shortReason : Text 512 := sampleText "seen on site" (by decide +kernel)

theorem reloads_iff_seen : construct asciiWord noCredentials (sampleArguments shortReason) =
      .ok (sampleCommand shortReason (by decide +kernel)) ∧
    (sampleCommand shortReason (by decide +kernel)).Reloads id :=
  ⟨construct_sample shortReason _,
    (reloads_iff asciiWord noCredentials id _ _ (construct_sample shortReason (by decide +kernel))).mpr
      ⟨⟨by decide +kernel, by rintro text ⟨⟩⟩, by decide⟩⟩

/-- A command with a reason of 512 characters is accepted and stored, and cannot be read again. -/
theorem long_reason_not_reloaded :
    construct asciiWord noCredentials (sampleArguments longReason) =
    .ok (sampleCommand longReason longReason_size) ∧
      fromDict asciiWord noCredentials (sampleCommand longReason longReason_size).toDict =
        .error (.message "reason exceeds 512 characters") := by
  refine ⟨construct_sample longReason longReason_size, ?_⟩
  apply Command.fromDict_long_reason
  show 512 < (sanitizeAuditText asciiWord longReason.value).length
  rw [sanitize_longReason, String.length_ofList, List.length_append, List.length_replicate]
  decide

end CountyFlow.Memory.Proposal
