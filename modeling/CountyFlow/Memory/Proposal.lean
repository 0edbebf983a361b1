import CountyFlow.Core.Json
import CountyFlow.Core.Literal
import CountyFlow.Memory.Model
import CountyFlow.Memory.Sanitizer
import CountyFlow.Memory.Times

/-!
# Proposals as they are stored

`SharedMemoryMutationCommand` of `app/shared_memory/models.py` with its constructor, `to_dict` and
`from_dict`, and the fingerprints of `app/shared_memory/identity.py`.  A command holds what the constructor
has checked, so that it is well formed by its type.  Parameters are what `\w` matches, whether
`urlsplit` finds a user or a password in a text (`none` where it raises), and `sha256` in hexadecimal.
-/

namespace CountyFlow.Memory

open CountyFlow.Core (Given Key Number State Value bytes)
open CountyFlow.Security (Text required)
open CountyFlow.Worker.Db (strip)

def MemoryCategory.value : MemoryCategory → String
  | .chat => "ChatMemory"
  | .llmWiki => "LLMWiki"
  | .codeGraph => "CodeGraph"
  | .dispatch => "DispatchMemory"

def MemoryFactKind.value : MemoryFactKind → String
  | .attribute => "ATTRIBUTE"
  | .relationship => "RELATIONSHIP"
  | .experience => "EXPERIENCE"
  | .hybrid => "HYBRID"

def MemoryTarget.value : MemoryTarget → String
  | .vector => "VECTOR"
  | .graph => "GRAPH"

namespace Proposal

/-- What a constructor raises; `unsupported` is the `ValueError` of `_enum`, with the value in its text. -/
inductive CommandError where
  | unsupported (fieldName value : String)
  | message (text : String)
  /-- `decimal.InvalidOperation`. -/
  | invalidOperation
  /-- A `ValueError` of `urlsplit`, of `fromisoformat`, or of `json.dumps`. -/
  | url | isoformat | json
  deriving DecidableEq, Repr

/-- `_enum`: the member with this value. -/
def enum {α : Type} (members : List α) (value : α → String) (text fieldName : String) :
    Except CommandError α :=
  match members.find? fun member => value member = text with
  | some member => .ok member
  | none => .error (.unsupported fieldName text)

def enumCategory (text : String) : Except CommandError MemoryCategory :=
  enum [.chat, .llmWiki, .codeGraph, .dispatch] MemoryCategory.value text "memory category"

def enumFactKind (text : String) : Except CommandError MemoryFactKind :=
  enum [.attribute, .relationship, .experience, .hybrid] MemoryFactKind.value text "memory fact kind"

def enumTarget (text : String) : Except CommandError MemoryTarget :=
  enum [.vector, .graph] MemoryTarget.value text "memory target"

/-! ### Checks of single fields -/

def requiredText (value fieldName : String) (maximum : ℕ) : Except CommandError (Text maximum) :=
  (required value fieldName maximum).mapError .message

/-- `_optional_text`: a text of spaces is none. -/
def optionalText (value : Option String) (fieldName : String) (maximum : ℕ) :
    Except CommandError (Option (Text maximum)) :=
  match value with
  | none => .ok none
  | some value => if strip value = "" then .ok none else (requiredText value fieldName maximum).map some

variable (isWord : Char → Bool) (credentials : String → Option Bool)

/-- A text that has been sanitised.  It can be longer than it was. -/
@[ext] structure AuditText where
  value : String
  stripped : strip value = value
  nonempty : value ≠ ""
  sanitized : sanitizeAuditText isWord value = value

instance : DecidableEq (AuditText isWord) :=
  fun a b => decidable_of_iff (a.value = b.value) AuditText.ext_iff.symm

/-- `sanitize_audit_text`, of a text that has been checked. -/
def sanitized {maximum : ℕ} (text : Text maximum) : AuditText isWord :=
  ⟨sanitizeAuditText isWord text.value, strip_sanitize isWord text.stripped,
    sanitize_ne_empty isWord text.nonempty, sanitize_sanitize isWord text.value⟩

def validateSafeReference (ref : Option (Text 512)) : Except CommandError (Option (Text 512)) :=
  match ref with
  | none => .ok none
  | some text =>
    match credentials text.value with
    | none => .error .url
    | some true => .error (.message "evidence_ref must not contain credentials")
    | some false => .ok (some text)

/-- `Decimal("0") <= d <= Decimal("1")`. -/
def inUnit (d : Core.Decimal) : Bool :=
  Number.le (.finite ⟨false, 0, 0⟩) (.finite d) = some true ∧
    Number.le (.finite d) (.finite ⟨false, 1, 0⟩) = some true

/-- A confidence: a finite number between zero and one. -/
structure Confidence where
  number : Core.Decimal
  size : Number.tooLarge number = false
  bounded : inUnit number = true
  deriving DecidableEq

/-- `Decimal(text)`, which leaves spaces out. -/
def decimalOf (text : String) : Option Number := Number.ofText (strip text)

/-- The check of the confidence, of which `text` is the `str`. -/
def confidenceOf (text : String) : Except CommandError Confidence :=
  match h : decimalOf text with
  | none => .error .invalidOperation
  | some (.finite d) =>
    if hunit : inUnit d = true then .ok ⟨d, Number.ofText_size h, hunit⟩
    else .error (.message "confidence must be finite and between 0 and 1")
  | some _ => .error (.message "confidence must be finite and between 0 and 1")

/-- `_aware`. -/
def awareTime (t : GivenDatetime) (fieldName : String) : Except CommandError AwareDatetime :=
  (aware t fieldName).mapError .message

/-- `_aware`, of a time that may be missing. -/
def awareOption (t : Option GivenDatetime) (fieldName : String) :
    Except CommandError (Option AwareDatetime) :=
  match t with
  | none => .ok none
  | some t => (awareTime t fieldName).map some

/-! ### The constructor -/

/-- The arguments of the constructor; of the confidence its `str`, of the value its entries. -/
structure Arguments where
  idempotencyKey : String
  category : String
  factKind : String
  subjectType : String
  subjectId : String
  predicate : String
  valueJson : List (Key × Given)
  confidence : String
  incomingAt : GivenDatetime
  sourceType : String
  sourceId : String
  operatorId : String
  humanConfirmed : Bool
  reason : String
  targets : List String
  objectType : Option String
  objectId : Option String
  expectedVersion : Option ℤ
  expiresAt : Option GivenDatetime
  evidenceText : Option String
  evidenceRef : Option String
  evidenceObservedAt : Option GivenDatetime
  vectorMemoryId : Option String
  graphFactKey : Option String

/-- The fields after the checks that look at one of them. -/
structure Fields where
  idempotencyKey : Text 128
  category : MemoryCategory
  factKind : MemoryFactKind
  subjectType : Text 64
  subjectId : Text 128
  predicate : Text 64
  confidence : Confidence
  incomingAt : AwareDatetime
  sourceType : Text 64
  sourceId : Text 128
  operatorId : Text 128
  humanConfirmed : Bool
  reason : AuditText isWord
  targets : Finset MemoryTarget
  targets_ne : targets ≠ ∅
  objectType : Option (Text 64)
  objectId : Option (Text 128)
  expectedVersion : Option ℤ
  expiresAt : Option AwareDatetime
  evidenceText : Option (AuditText isWord)
  evidenceRef : Option (Text 512)
  safe : ∀ ref ∈ evidenceRef, credentials ref.value = some false
  evidenceObservedAt : Option AwareDatetime
  vectorMemoryId : Option (Text 128)
  graphFactKey : Option (Text 255)

/-- `targets`: a set of targets that is not empty. -/
def targetsOf (targets : List String) : Except CommandError {s : Finset MemoryTarget // s ≠ ∅} := do
  let members ← targets.mapM enumTarget
  if h : members.toFinset ≠ ∅ then .ok ⟨members.toFinset, h⟩
    else .error (.message "targets must not be empty")

theorem validate_ok {ref ref' : Option (Text 512)} (h : validateSafeReference credentials ref = .ok ref') :
    ref' = ref ∧ ∀ text ∈ ref', credentials text.value = some false := by
  unfold validateSafeReference at h
  split at h
  · cases h
    simp
  · split at h
    · cases h
    · cases h
    · rename_i hsafe
      cases h
      simp [hsafe]

/-- `validate_safe_reference` with what it has found out. -/
def safeReference (ref : Option (Text 512)) :
    Except CommandError {ref : Option (Text 512) // ∀ text ∈ ref, credentials text.value = some false} :=
  match h : validateSafeReference credentials ref with
  | .error e => .error e
  | .ok ref' => .ok ⟨ref', (validate_ok credentials h).2⟩

/-- The first part of `__post_init__`. -/
def normalize (args : Arguments) : Except CommandError (Fields isWord credentials) := do
  let category ← enumCategory args.category
  let factKind ← enumFactKind args.factKind
  let targets ← targetsOf args.targets
  let idempotencyKey ← requiredText args.idempotencyKey "idempotency_key" 128
  let subjectType ← requiredText args.subjectType "subject_type" 64
  let subjectId ← requiredText args.subjectId "subject_id" 128
  let predicate ← requiredText args.predicate "predicate" 64
  let sourceType ← requiredText args.sourceType "source_type" 64
  let sourceId ← requiredText args.sourceId "source_id" 128
  let operatorId ← requiredText args.operatorId "operator_id" 128
  let reason ← requiredText args.reason "reason" 512
  let objectType ← optionalText args.objectType "object_type" 64
  let objectId ← optionalText args.objectId "object_id" 128
  let evidenceText ← optionalText args.evidenceText "evidence_text" 2000
  let evidenceRef ← optionalText args.evidenceRef "evidence_ref" 512
  let vectorMemoryId ← optionalText args.vectorMemoryId "vector_memory_id" 128
  let graphFactKey ← optionalText args.graphFactKey "graph_fact_key" 255
  let safeRef ← safeReference credentials evidenceRef
  let confidence ← confidenceOf args.confidence
  let incomingAt ← awareTime args.incomingAt "incoming_at"
  let expiresAt ← awareOption args.expiresAt "expires_at"
  let evidenceObservedAt ← awareOption args.evidenceObservedAt "evidence_observed_at"
  .ok {
    idempotencyKey, category, factKind, subjectType, subjectId, predicate, confidence, incomingAt, sourceType,
    sourceId, operatorId
    humanConfirmed := args.humanConfirmed
    reason := sanitized isWord reason
    targets := targets.1
    targets_ne := targets.2
    objectType, objectId
    expectedVersion := args.expectedVersion
    expiresAt
    evidenceText := evidenceText.map (sanitized isWord)
    evidenceRef := safeRef.1
    safe := safeRef.2
    evidenceObservedAt, vectorMemoryId, graphFactKey }

/-! ### Stored dictionaries -/

/-- The dictionary that `to_dict` makes. -/
structure StoredFact where
  idempotencyKey : String
  category : String
  factKind : String
  subjectType : String
  subjectId : String
  predicate : String
  objectType : Option String
  objectId : Option String
  valueJson : State
  expectedVersion : Option ℤ
  confidence : String
  incomingAt : String
  expiresAt : Option String
  sourceType : String
  sourceId : String
  operatorId : String
  humanConfirmed : Bool
  reason : String
  evidenceText : Option String
  evidenceRef : Option String
  evidenceObservedAt : Option String
  vectorMemoryId : Option String
  graphFactKey : Option String
  targets : List String
  deriving DecidableEq

/-- A text or `None`. -/
def optionValue : Option String → Value
  | none => .none
  | some text => .str text

def StoredFact.entries (stored : StoredFact) : State :=
  [("idempotency_key", .str stored.idempotencyKey),
    ("category", .str stored.category),
    ("fact_kind", .str stored.factKind),
    ("subject_type", .str stored.subjectType),
    ("subject_id", .str stored.subjectId),
    ("predicate", .str stored.predicate),
    ("object_type", optionValue stored.objectType),
    ("object_id", optionValue stored.objectId),
    ("value_json", .dict stored.valueJson),
    ("expected_version", match stored.expectedVersion with
      | none => .none
      | some version => .int version),
    ("confidence", .str stored.confidence),
    ("incoming_at", .str stored.incomingAt),
    ("expires_at", optionValue stored.expiresAt),
    ("source_type", .str stored.sourceType),
    ("source_id", .str stored.sourceId),
    ("operator_id", .str stored.operatorId),
    ("human_confirmed", .bool stored.humanConfirmed),
    ("reason", .str stored.reason),
    ("evidence_text", optionValue stored.evidenceText),
    ("evidence_ref", optionValue stored.evidenceRef),
    ("evidence_observed_at", optionValue stored.evidenceObservedAt),
    ("vector_memory_id", optionValue stored.vectorMemoryId),
    ("graph_fact_key", optionValue stored.graphFactKey),
    ("targets", .list (stored.targets.map Value.str))]

/-- `sorted(target.value for target in targets)`. -/
def sortedTargets (targets : Finset MemoryTarget) : List String :=
  ([MemoryTarget.graph, .vector].filter (· ∈ targets)).map MemoryTarget.value

variable {isWord credentials} in
def Fields.toDict (fields : Fields isWord credentials) (valueJson : State) : StoredFact where
  idempotencyKey := fields.idempotencyKey.value
  category := fields.category.value
  factKind := fields.factKind.value
  subjectType := fields.subjectType.value
  subjectId := fields.subjectId.value
  predicate := fields.predicate.value
  objectType := fields.objectType.map Text.value
  objectId := fields.objectId.map Text.value
  valueJson := valueJson
  expectedVersion := fields.expectedVersion
  confidence := fields.confidence.number.fixed
  incomingAt := isoformat fields.incomingAt
  expiresAt := fields.expiresAt.map isoformat
  sourceType := fields.sourceType.value
  sourceId := fields.sourceId.value
  operatorId := fields.operatorId.value
  humanConfirmed := fields.humanConfirmed
  reason := fields.reason.value
  evidenceText := fields.evidenceText.map AuditText.value
  evidenceRef := fields.evidenceRef.map Text.value
  evidenceObservedAt := fields.evidenceObservedAt.map isoformat
  vectorMemoryId := fields.vectorMemoryId.map Text.value
  graphFactKey := fields.graphFactKey.map Text.value
  targets := sortedTargets fields.targets

/-! ### Commands -/

/-- The number of bytes of the canonical text; `none` where `json.dumps` raises. -/
def canonicalSize (value : Given) : Option ℕ := value.canonical.map bytes

/-- `json.loads(json.dumps(value))`, of a dictionary. -/
def copyDict (entries : List (Key × Given)) : Option State :=
  (Given.copyEntries entries).map (State.update [])

theorem copy_dict (entries : List (Key × Given)) : (Given.dict entries).copy =
    (copyDict entries).map Value.dict := by
  unfold copyDict
  rw [Given.copy, Option.map_map]
  rfl

theorem copyDict_ok {entries : List (Key × Given)} {valueJson : State}
    (hcopy : copyDict entries = some valueJson)
    {size : ℕ} (hsize : canonicalSize (.dict entries) = some size) :
    copyDict (Value.givenEntries valueJson) = some valueJson ∧
      ∃ n ∈ canonicalSize (Value.dict valueJson).given, n ≤ size := by
  have hcopied : Given.Copied (.dict entries) (.dict valueJson) := by
    apply Given.copied_of_copy
    rw [copy_dict, hcopy]
    rfl
  constructor
  · have hagain := hcopied.copy
    rw [Value.given, copy_dict] at hagain
    obtain ⟨valueJson', h, hsame⟩ := Option.map_eq_some_iff.mp hagain
    cases hsame
    exact h
  · obtain ⟨text, htext⟩ := Option.isSome_iff_exists.mp hcopied.canonical
    obtain ⟨text', htext', rfl⟩ := Option.map_eq_some_iff.mp hsize
    refine ⟨bytes text, ?_, ?_⟩
    · simp [canonicalSize, htext]
    · rw [Given.canonical_size _ htext, Given.canonical_size _ htext']
      exact hcopied.size

/-- `SharedMemoryMutationCommand`. -/
structure Command where
  fields : Fields isWord credentials
  valueJson : State
  version_pos : ¬ ∃ version ∈ fields.expectedVersion, version < 1
  evidence : ¬ (fields.evidenceText = none ∧ fields.evidenceRef = none)
  object : ¬ ((fields.factKind = .relationship ∨ fields.factKind = .hybrid) ∧
    (fields.objectType = none ∨ fields.objectId = none))
  value_copied : copyDict (Value.givenEntries valueJson) = some valueJson
  value_size : ∃ n ∈ canonicalSize (Value.dict valueJson).given, n ≤ 16 * 1024
  proposed_size : ∃ n ∈ canonicalSize (Value.dict (fields.toDict valueJson).entries).given, n ≤ 32 * 1024

variable {isWord credentials}

/-- The second part of `__post_init__`, with the entries of `value_json`. -/
def complete (fields : Fields isWord credentials) (entries : List (Key × Given)) :
    Except CommandError (Command isWord credentials) :=
  if hversion : ∃ version ∈ fields.expectedVersion, version < 1 then
    .error (.message "expected_version must be positive")
  else if hevidence : fields.evidenceText = none ∧ fields.evidenceRef = none then
    .error (.message "evidence_text or evidence_ref is required")
  else if hobject : (fields.factKind = .relationship ∨ fields.factKind = .hybrid) ∧
      (fields.objectType = none ∨ fields.objectId = none) then
    .error (.message "object_type and object_id are required for relationship facts")
  else
    match hsize : canonicalSize (.dict entries) with
    | none => .error (.message "value_json must be JSON serializable with finite numbers")
    | some size =>
      if hlong : 16 * 1024 < size then .error (.message "value_json exceeds 16 KiB")
      else
        match hcopy : copyDict entries with
        | none => .error .json
        | some valueJson =>
          match hproposed : canonicalSize (Value.dict (fields.toDict valueJson).entries).given with
          | none => .error .json
          | some proposed =>
            if hfits : 32 * 1024 < proposed then .error (.message "proposed_fact_json exceeds 32 KiB")
            else .ok {
              fields, valueJson
              version_pos := hversion
              evidence := hevidence
              object := hobject
              value_copied := (copyDict_ok hcopy hsize).1
              value_size := by
                obtain ⟨n, hn, hle⟩ := (copyDict_ok hcopy hsize).2
                exact ⟨n, hn, hle.trans (Nat.le_of_not_lt hlong)⟩
              proposed_size := ⟨proposed, hproposed, Nat.le_of_not_lt hfits⟩ }

variable (isWord credentials)

/-- `SharedMemoryMutationCommand(...)`. -/
def construct (args : Arguments) : Except CommandError (Command isWord credentials) := do
  let fields ← normalize isWord credentials args
  complete fields args.valueJson

/-- The `str` of a number. -/
def numberText : Number → String
  | .finite d => d.str
  | .infinite negative => if negative then "-Infinity" else "Infinity"
  | .nan => "NaN"

/-- `datetime.fromisoformat`. -/
def readTime (text : String) : Except CommandError GivenDatetime :=
  match fromisoformat text with
  | none => .error .isoformat
  | some t => .ok t.given

/-- `datetime.fromisoformat` of a text that is neither missing nor empty. -/
def readOptionalTime (text : Option String) : Except CommandError (Option GivenDatetime) :=
  match text.filter (· ≠ "") with
  | none => .ok none
  | some text => (readTime text).map some

/-- The arguments that `from_dict` reads from a dictionary; empty texts count as missing. -/
def StoredFact.arguments (stored : StoredFact) : Except CommandError Arguments := do
  let confidence ← match decimalOf stored.confidence with
    | none => .error .invalidOperation
    | some number => .ok (numberText number)
  let incomingAt ← readTime stored.incomingAt
  let expiresAt ← readOptionalTime stored.expiresAt
  let evidenceObservedAt ← readOptionalTime stored.evidenceObservedAt
  .ok {
    idempotencyKey := stored.idempotencyKey
    category := stored.category
    factKind := stored.factKind
    subjectType := stored.subjectType
    subjectId := stored.subjectId
    predicate := stored.predicate
    valueJson := Value.givenEntries stored.valueJson
    confidence, incomingAt
    sourceType := stored.sourceType
    sourceId := stored.sourceId
    operatorId := stored.operatorId
    humanConfirmed := stored.humanConfirmed
    reason := stored.reason
    targets := stored.targets
    objectType := stored.objectType.filter (· ≠ "")
    objectId := stored.objectId.filter (· ≠ "")
    expectedVersion := stored.expectedVersion
    expiresAt
    evidenceText := stored.evidenceText.filter (· ≠ "")
    evidenceRef := stored.evidenceRef.filter (· ≠ "")
    evidenceObservedAt
    vectorMemoryId := stored.vectorMemoryId.filter (· ≠ "")
    graphFactKey := stored.graphFactKey.filter (· ≠ "") }

def fromDict (stored : StoredFact) : Except CommandError (Command isWord credentials) := do
  let args ← stored.arguments
  construct isWord credentials args

variable {isWord credentials}

namespace Command

def toDict (command : Command isWord credentials) : StoredFact := command.fields.toDict command.valueJson

/-- Both are missing, or they are the same. -/
def sameOption {α : Type} (same : α → α → Bool) : Option α → Option α → Bool
  | none, none => true
  | some a, some b => same a b
  | _, _ => false

/-- `a == b`: numbers and times are compared by what they say.  The keys of the two values stand in the
order in which they were copied. -/
def equals (a b : Command isWord credentials) : Bool :=
  a.fields.idempotencyKey = b.fields.idempotencyKey ∧ a.fields.category = b.fields.category ∧
  a.fields.factKind = b.fields.factKind ∧ a.fields.subjectType = b.fields.subjectType ∧
  a.fields.subjectId = b.fields.subjectId ∧ a.fields.predicate = b.fields.predicate ∧
  a.valueJson = b.valueJson ∧ a.fields.confidence.number.same b.fields.confidence.number ∧
  a.fields.incomingAt.equals b.fields.incomingAt ∧ a.fields.sourceType = b.fields.sourceType ∧
  a.fields.sourceId = b.fields.sourceId ∧ a.fields.operatorId = b.fields.operatorId ∧
  a.fields.humanConfirmed = b.fields.humanConfirmed ∧ a.fields.reason = b.fields.reason ∧
  a.fields.targets = b.fields.targets ∧ a.fields.objectType = b.fields.objectType ∧
  a.fields.objectId = b.fields.objectId ∧ a.fields.expectedVersion = b.fields.expectedVersion ∧
  sameOption AwareDatetime.equals a.fields.expiresAt b.fields.expiresAt ∧
  a.fields.evidenceText = b.fields.evidenceText ∧ a.fields.evidenceRef = b.fields.evidenceRef ∧
  sameOption AwareDatetime.equals a.fields.evidenceObservedAt b.fields.evidenceObservedAt ∧
  a.fields.vectorMemoryId = b.fields.vectorMemoryId ∧ a.fields.graphFactKey = b.fields.graphFactKey

/-! ### Identity -/

variable (sha256 : String → String)

/-- `_digest`, of a dictionary. -/
def digest (entries : State) : Option String :=
  (Value.dict entries).given.canonical.map fun text => sha256 (String.ofList text)

def factIdentity (command : Command isWord credentials) : State :=
  let identity : State :=
    [("category", .str command.toDict.category),
      ("fact_kind", .str command.toDict.factKind),
      ("subject_type", .str command.toDict.subjectType),
      ("subject_id", .str command.toDict.subjectId),
      ("predicate", .str command.toDict.predicate)]
  match command.fields.factKind with
  | .relationship | .hybrid | .experience => identity ++
      [("object_type", optionValue command.toDict.objectType),
      ("object_id", optionValue command.toDict.objectId)]
  | .attribute => identity

def buildFactKey (command : Command isWord credentials) : Option String :=
  (digest sha256 command.factIdentity).map fun hex => "smf_" ++ hex

def contentFingerprint (command : Command isWord credentials) : Option String :=
  digest sha256
    [("subject_type", .str command.toDict.subjectType),
      ("subject_id", .str command.toDict.subjectId),
      ("predicate", .str command.toDict.predicate),
      ("object_type", optionValue command.toDict.objectType),
      ("object_id", optionValue command.toDict.objectId),
      ("value_json", .dict command.valueJson)]

def payloadFingerprint (command : Command isWord credentials) : Option String :=
  digest sha256 (command.toDict.entries.filter fun entry => entry.1 ≠ "idempotency_key")

def evidenceFingerprint (command : Command isWord credentials) : Option String :=
  digest sha256
    [("source_type", .str command.toDict.sourceType),
      ("source_id", .str command.toDict.sourceId),
      ("evidence_text", optionValue command.toDict.evidenceText),
      ("evidence_ref", optionValue command.toDict.evidenceRef),
      ("observed_at", optionValue command.toDict.evidenceObservedAt),
      ("confidence", .str command.toDict.confidence)]

end Command

/-- What a stored mutation is taken up with: its proposal and its key. -/
structure StoredMutation where
  factKey : String
  proposedFactJson : StoredFact

/-- What `_resume_locked` raises first. -/
inductive ResumeError where
  | command (error : CommandError)
  | validation (message : String)
  deriving DecidableEq, Repr

variable (isWord credentials) in
/-- The beginning of `_resume_locked`: the command, if it has the identity that is stored. -/
def resume (sha256 : String → String) (stored : StoredMutation) :
    Except ResumeError (Command isWord credentials) :=
  match fromDict isWord credentials stored.proposedFactJson with
  | .error e => .error (.command e)
  | .ok command =>
    if command.buildFactKey sha256 = some stored.factKey then .ok command
    else .error (.validation "Stored memory mutation identity is invalid")

end Proposal

end CountyFlow.Memory
