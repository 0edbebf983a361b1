import Mathlib.Data.Finset.Basic
import Mathlib.Data.List.Sort
import Mathlib.Data.Rat.Floor
import Mathlib.Algebra.Order.Field.Rat
import Mathlib.Tactic.NormNum

/-!
# Shared memory: commands, facts, projections and the policy

A command proposes what one canonical fact should say.  The fact is found by its key, a digest of
the command's identity; what it says is compared by a content fingerprint, the evidence for it by
an evidence fingerprint and a repeated command by a payload fingerprint.  The last three are held
by the data they are the digests of; the fact key is a text, because a vector memory id is a text
too and the two share one name space.
-/

namespace CountyFlow.Memory

inductive MemoryCategory where
  | chat | llmWiki | codeGraph | dispatch
  deriving DecidableEq, Repr

inductive MemoryFactKind where
  | attribute | relationship | experience | hybrid
  deriving DecidableEq, Repr

inductive MemoryTarget where
  | vector | graph
  deriving DecidableEq, Repr

inductive MemoryFactStatus where
  | active | expired | pendingReview | conflict
  deriving DecidableEq, Repr

inductive MutationDecision where
  | create | merge | replace | reject | conflictReview | noop
  deriving DecidableEq, Repr

/-- `partly` is `PARTIAL`. -/
inductive MutationStatus where
  | pending | applying | finalizing | applied | partly | rejected | conflict | failed
  deriving DecidableEq, Repr

inductive ProjectionStatus where
  | notRequired | pending | staged | active | retired | failed
  deriving DecidableEq, Repr

/-- The statuses a resumed mutation is returned in as it stands. -/
def MutationStatus.finished : MutationStatus → Bool
  | .applied | .rejected | .conflict | .failed => true
  | .pending | .applying | .finalizing | .partly => false

/-- A non-negative decimal as it is written, `coefficient / 10 ^ places`. -/
structure Decimal where
  coefficient : ℕ
  places : ℕ
  deriving DecidableEq, Repr

def Decimal.value (d : Decimal) : ℚ := d.coefficient / 10 ^ d.places

/-- What a `NUMERIC(5, 4)` column keeps of a value. -/
def numeric54 (q : ℚ) : ℚ := ⌊q * 10000 + 1 / 2⌋ / 10000

/-- A JSON value: its canonical text, `str(value)`, and `str(value).strip().lower()`. -/
structure JsonValue where
  json : String
  display : String
  slug : String
  deriving DecidableEq, Repr

/-- `SharedMemoryMutationCommand`.  Times are instants; `valueJson` is in insertion order.  `expiresShift`
is by how much the `DateTime` column of a fact, read by `_as_utc`, changes `expiresAt`: the databases drop
its UTC offset, and MySQL a fraction of a second. -/
structure MutationCommand where
  idempotencyKey : String
  category : MemoryCategory
  factKind : MemoryFactKind
  subjectType : String
  subjectId : String
  predicate : String
  valueJson : List (String × JsonValue)
  confidence : Decimal
  incomingAt : ℤ
  sourceType : String
  sourceId : String
  operatorId : String
  humanConfirmed : Bool
  reason : String
  targets : Finset MemoryTarget
  objectType : Option String
  objectId : Option String
  expectedVersion : Option ℕ
  expiresAt : Option ℤ
  evidenceText : Option String
  evidenceRef : Option String
  evidenceObservedAt : Option ℤ
  vectorMemoryId : Option String
  graphFactKey : Option String
  confidence_le : confidence.value ≤ 1
  expiresShift : ℤ := 0
  deriving DecidableEq

/-- What `fact_identity` collects; an attribute leaves its object out. -/
structure FactIdentity where
  category : MemoryCategory
  factKind : MemoryFactKind
  subjectType : String
  subjectId : String
  predicate : String
  object : Option (Option String × Option String)
  deriving DecidableEq, Repr

/-- What `content_fingerprint` is the digest of: the JSON text sorts the keys of the value. -/
structure Content where
  subjectType : String
  subjectId : String
  predicate : String
  objectType : Option String
  objectId : Option String
  value : List (String × String)
  deriving DecidableEq, Repr

/-- What `evidence_fingerprint` is the digest of. -/
structure EvidenceFingerprint where
  sourceType : String
  sourceId : String
  text : Option String
  ref : Option String
  observedAt : Option ℤ
  confidence : Decimal
  deriving DecidableEq, Repr

namespace MutationCommand

/-- What the column of the fact gives back of `expiresAt`. -/
def storedExpiresAt (c : MutationCommand) : Option ℤ := c.expiresAt.map (· + c.expiresShift)

theorem storedExpiresAt_eq_iff (c : MutationCommand) :
    c.storedExpiresAt = c.expiresAt ↔ c.expiresAt = none ∨ c.expiresShift = 0 := by
  unfold storedExpiresAt
  cases c.expiresAt with
  | none => exact iff_of_true rfl (.inl rfl)
  | some t =>
    rw [Option.map_some, Option.some.injEq, add_eq_left]
    exact ⟨.inr, fun h => h.resolve_left (Option.some_ne_none t)⟩

def factIdentity (c : MutationCommand) : FactIdentity where
  category := c.category
  factKind := c.factKind
  subjectType := c.subjectType
  subjectId := c.subjectId
  predicate := c.predicate
  object :=
    match c.factKind with
    | .attribute => none
    | .relationship | .hybrid | .experience => some (c.objectType, c.objectId)

def contentFingerprint (c : MutationCommand) : Content where
  subjectType := c.subjectType
  subjectId := c.subjectId
  predicate := c.predicate
  objectType := c.objectType
  objectId := c.objectId
  value := (c.valueJson.map fun entry => (entry.1, entry.2.json)).insertionSort
    fun a b => a.1 ≤ b.1

def evidenceFingerprint (c : MutationCommand) : EvidenceFingerprint where
  sourceType := c.sourceType
  sourceId := c.sourceId
  text := c.evidenceText
  ref := c.evidenceRef
  observedAt := c.evidenceObservedAt
  confidence := c.confidence

/-- `payload_fingerprint`: the command without its idempotency key. -/
def payloadFingerprint (c : MutationCommand) : MutationCommand := { c with idempotencyKey := "" }

/-- The table of `_validate_command`. -/
def allowedTargets : MemoryFactKind → Finset MemoryTarget
  | .attribute | .relationship => {.graph}
  | .experience => {.vector}
  | .hybrid => {.vector, .graph}

/-- `_validate_command` accepts the command. -/
def validated (c : MutationCommand) : Bool :=
  c.category = .dispatch ∧ c.targets = allowedTargets c.factKind

end MutationCommand

/-! ### The policy -/

/-- `MemoryPolicySettings`: both values lie in `[0, 1]`. -/
structure MemoryPolicySettings where
  autoApplyMinConfidence : ℚ
  lowerConfidenceRejectDelta : ℚ
  auto_nonneg : 0 ≤ autoApplyMinConfidence
  auto_le : autoApplyMinConfidence ≤ 1
  delta_nonneg : 0 ≤ lowerConfidenceRejectDelta
  delta_le : lowerConfidenceRejectDelta ≤ 1

/-- `SharedMemoryFactSnapshot`. -/
structure FactSnapshot where
  factKey : String
  version : ℕ
  contentFingerprint : Content
  confidence : ℚ
  status : MemoryFactStatus
  updatedAt : ℤ
  expiresAt : Option ℤ
  evidenceFingerprints : List EvidenceFingerprint
  deriving DecidableEq

def FactSnapshot.isExpired (f : FactSnapshot) (now : ℤ) : Bool :=
  f.status = .expired ∨ ∃ t ∈ f.expiresAt, t ≤ now

structure MemoryDecision where
  decision : MutationDecision
  reasonCode : String
  beforeVersion : Option ℕ
  afterVersion : Option ℕ
  proposedStatus : MemoryFactStatus
  requiresProjection : Bool
  deriving DecidableEq, Repr

/-- `_decision`. -/
def makeDecision (decision : MutationDecision) (reasonCode : String)
    (current : Option FactSnapshot) (status : MemoryFactStatus)
    (increments requiresProjection : Bool) : MemoryDecision where
  decision := decision
  reasonCode := reasonCode
  beforeVersion := current.map FactSnapshot.version
  afterVersion :=
    match current with
    | none => if increments then some 1 else none
    | some f => some (if increments then f.version + 1 else f.version)
  proposedStatus := status
  requiresProjection := requiresProjection

inductive MemoryError where
  | busy (factKey : String)
  | validation (message : String)
  | idempotencyConflict (idempotencyKey : String)
  | versionConflict (factKey : String) (expected actual : Option ℕ)
  | projectionIncomplete (mutationId : ℕ)
  | unknownMutation (mutationId : ℕ)
  /-- An enumeration has no such value. -/
  | valueError
  | keyError
  /-- `build_graph` finds no value, no such entity type or relation type, or a blank name. -/
  | build
  /-- A timeout, a cancellation or an outage. -/
  | interrupted
  | crashed
  deriving DecidableEq, Repr

def evaluateMutation (current : Option FactSnapshot) (key : String) (command : MutationCommand)
    (settings : MemoryPolicySettings) (now : ℤ) : Except MemoryError MemoryDecision :=
  if command.expectedVersion ≠ current.map FactSnapshot.version then
    .error (.versionConflict ((current.map FactSnapshot.factKey).getD key) command.expectedVersion
      (current.map FactSnapshot.version))
  else if command.confidence.value < settings.autoApplyMinConfidence ∧ ¬ command.humanConfirmed then
    .ok (makeDecision .conflictReview "LOW_CONFIDENCE_REVIEW" current
      (if current.isSome then .conflict else .pendingReview) false false)
  else
    match current with
    | none => .ok (makeDecision .create "NEW_FACT" none .active true true)
    | some fact =>
      if fact.isExpired now then
        .ok (makeDecision .replace "EXPIRED_FACT" current .active true true)
      else if command.contentFingerprint = fact.contentFingerprint then
        if command.evidenceFingerprint ∈ fact.evidenceFingerprints ∧
            command.confidence.value = fact.confidence ∧ command.expiresAt = fact.expiresAt then
          .ok (makeDecision .noop "DUPLICATE_FACT_AND_EVIDENCE" current fact.status false false)
        else
          .ok (makeDecision .merge "NEW_EVIDENCE_OR_METADATA" current .active true true)
      else if command.humanConfirmed then
        .ok (makeDecision .replace "HUMAN_CONFIRMED" current .active true true)
      else if command.incomingAt < fact.updatedAt then
        .ok (makeDecision .reject "STALE_EVIDENCE" current fact.status false false)
      else if settings.lowerConfidenceRejectDelta ≤ fact.confidence - command.confidence.value then
        .ok (makeDecision .reject "LOWER_CONFIDENCE" current fact.status false false)
      else
        .ok (makeDecision .conflictReview "CONTENT_CONFLICT_REVIEW" current .conflict false false)

def MutationDecision.writes : MutationDecision → Bool
  | .create | .merge | .replace => true
  | .reject | .conflictReview | .noop => false

/-- The version a written fact gets. -/
def nextVersion : Option ℕ → ℕ
  | none => 1
  | some v => v + 1

/-- **What a decision that writes says.**  It is for the version it saw and the next one, the fact
becomes active, the command was good enough, and a fact it saw either said the same, was expired or
is overruled by a human. -/
structure MemoryDecision.Writes (d : MemoryDecision) (current : Option FactSnapshot)
    (command : MutationCommand) (settings : MemoryPolicySettings) (now : ℤ) : Prop where
  before : d.beforeVersion = current.map FactSnapshot.version
  after : d.afterVersion = some (nextVersion d.beforeVersion)
  status : d.proposedStatus = .active
  projects : d.requiresProjection = true
  good : command.humanConfirmed = true ∨
    settings.autoApplyMinConfidence ≤ command.confidence.value
  content : ∀ fact ∈ current, command.contentFingerprint = fact.contentFingerprint ∨
    command.humanConfirmed = true ∨ fact.isExpired now = true

variable {current : Option FactSnapshot} {key : String} {command : MutationCommand}
  {settings : MemoryPolicySettings} {now : ℤ} {d : MemoryDecision}

/-- A decision writes the fact of its command, or nothing at all. -/
theorem evaluateMutation_cases (h : evaluateMutation current key command settings now = .ok d) :
    (d.decision.writes = true ∧ d.Writes current command settings now) ∨
      (d.decision.writes = false ∧ d.requiresProjection = false) := by
  unfold evaluateMutation at h
  split at h
  · cases h
  split at h
  · cases h
    exact .inr ⟨rfl, rfl⟩
  · rename_i hlow
    have hgood : command.humanConfirmed = true ∨
        settings.autoApplyMinConfidence ≤ command.confidence.value := by
      by_cases hc : command.humanConfirmed = true
      · exact .inl hc
      · exact .inr (not_lt.mp fun hlt => hlow ⟨hlt, hc⟩)
    split at h
    · cases h
      exact .inl ⟨rfl, rfl, rfl, rfl, rfl, hgood, fun fact hfact => by cases hfact⟩
    · rename_i fact
      split at h
      · rename_i hexp
        cases h
        refine .inl ⟨rfl, rfl, rfl, rfl, rfl, hgood, ?_⟩
        intro fact' hfact
        cases hfact
        exact .inr (.inr hexp)
      split at h
      · rename_i hsame
        split at h
        · cases h
          exact .inr ⟨rfl, rfl⟩
        · cases h
          refine .inl ⟨rfl, rfl, rfl, rfl, rfl, hgood, ?_⟩
          intro fact' hfact
          cases hfact
          exact .inl hsame
      split at h
      · rename_i hhuman
        cases h
        refine .inl ⟨rfl, rfl, rfl, rfl, rfl, hgood, ?_⟩
        intro fact' hfact
        cases hfact
        exact .inr (.inl hhuman)
      split at h
      · cases h
        exact .inr ⟨rfl, rfl⟩
      split at h
      · cases h
        exact .inr ⟨rfl, rfl⟩
      · cases h
        exact .inr ⟨rfl, rfl⟩

theorem expectedVersion_of_evaluate (h : evaluateMutation current key command settings now = .ok d) :
    command.expectedVersion = current.map FactSnapshot.version := by
  by_contra hne
  unfold evaluateMutation at h
  rw [if_pos hne] at h
  cases h

theorem evaluate_of_expectedVersion (h : command.expectedVersion = current.map FactSnapshot.version)
    (key : String) (settings : MemoryPolicySettings) (now : ℤ) :
    ∃ d, evaluateMutation current key command settings now = .ok d := by
  unfold evaluateMutation
  rw [if_neg (not_not.mpr h)]
  split
  · exact ⟨_, rfl⟩
  split
  · exact ⟨_, rfl⟩
  repeat' split
  all_goals exact ⟨_, rfl⟩

/-! ### Projections -/

inductive EntityType where
  | driver | vehicle | route | weather | roadCondition | station | anomaly | resolution
  | dispatchOrder | policyRule | userPreference
  deriving DecidableEq, Repr

inductive RelationType where
  | drives | serves | hasRiskOn | affectedBy | highRiskWhen | alternativeTo | resolvedBy
  | conflictsWith | dependsOn | status
  deriving DecidableEq, Repr

/-- `EntityType(value)`. -/
def EntityType.ofValue (value : String) : Option EntityType :=
  [("Driver", driver), ("Vehicle", vehicle), ("Route", route), ("Weather", weather),
    ("RoadCondition", roadCondition), ("Station", station), ("Anomaly", anomaly),
    ("Resolution", resolution), ("DispatchOrder", dispatchOrder), ("PolicyRule", policyRule),
    ("UserPreference", userPreference)].lookup value

/-- The entity type of a target: that of the object, or a road condition. -/
def EntityType.ofObject : Option String → Option EntityType
  | some objectType => EntityType.ofValue objectType
  | none => some .roadCondition

/-- `RelationType(value)`. -/
def RelationType.ofValue (value : String) : Option RelationType :=
  [("DRIVES", drives), ("SERVES", serves), ("HAS_RISK_ON", hasRiskOn), ("AFFECTED_BY", affectedBy),
    ("HIGH_RISK_WHEN", highRiskWhen), ("ALTERNATIVE_TO", alternativeTo),
    ("RESOLVED_BY", resolvedBy), ("CONFLICTS_WITH", conflictsWith), ("DEPENDS_ON", dependsOn),
    ("STATUS", status)].lookup value

/-- A node of the graph, by its `entity_key`. -/
structure EntityKey where
  entityType : EntityType
  entityId : String
  deriving DecidableEq, Repr

/-- Where a projection lies: a point by what `point_id` is the UUID of, a relation by the pattern
`stage` merges on. -/
inductive Slot where
  | point (memoryId : String) (controlVersion : ℕ)
  | relation (factKey : String) (controlVersion : ℕ) (source : EntityKey)
      (relationType : RelationType) (target : EntityKey)
  deriving DecidableEq, Repr

/-- What `activate` names: `point_id`, or `projection_id`, which does not have the target. -/
inductive ProjectionId where
  | point (memoryId : String) (controlVersion : ℕ)
  | relation (factKey : String) (controlVersion : ℕ)
  deriving DecidableEq, Repr

def Slot.target : Slot → MemoryTarget
  | .point .. => .vector
  | .relation .. => .graph

def Slot.projectionId : Slot → ProjectionId
  | .point memoryId version => .point memoryId version
  | .relation factKey version _ _ _ => .relation factKey version

/-- What a projection says.  The texts of a point are held by the parts they are made of; its
vector is a function of them. -/
inductive Body where
  | vector (subjectId predicate : String) (objectId : Option String)
      (valueJson : List (String × JsonValue)) (evidenceText : Option String) (reason : String)
      (expiresAt : Option ℤ)
  | graph (displayName : String) (confidence : Decimal) (sourceType : String)
      (evidence : Option String) (expiresAt : Option ℤ) (timestamp : ℤ)
  deriving DecidableEq, Repr

/-- `VectorProjection` and `GraphProjection`. -/
structure Projection where
  mutationId : ℕ
  factKey : String
  controlVersion : ℕ
  slot : Slot
  body : Body
  deriving DecidableEq, Repr

/-- `build_vector`, after the embedding. -/
def buildVector (c : MutationCommand) (mutationId : ℕ) (factKey : String) (version : ℕ) :
    Projection where
  mutationId := mutationId
  factKey := factKey
  controlVersion := version
  slot := .point (c.vectorMemoryId.getD factKey) version
  body := .vector c.subjectId c.predicate c.objectId c.valueJson c.evidenceText c.reason c.expiresAt

/-- `build_graph`; `none` where it raises. -/
def buildGraph (c : MutationCommand) (mutationId : ℕ) (factKey : String) (version : ℕ) :
    Option Projection := do
  let value ← c.valueJson.head?.map Prod.snd
  let targetType ← EntityType.ofObject c.objectType
  let sourceType ← EntityType.ofValue c.subjectType
  let relationType ← RelationType.ofValue c.predicate
  guard (value.slug ≠ "")
  return {
    mutationId := mutationId
    factKey := factKey
    controlVersion := version
    slot := .relation factKey version ⟨sourceType, c.subjectId⟩ relationType
      ⟨targetType, c.objectId.getD value.slug⟩
    body := .graph value.display c.confidence c.sourceType c.evidenceText c.expiresAt c.incomingAt }

def build (target : MemoryTarget) (c : MutationCommand) (mutationId : ℕ) (factKey : String)
    (version : ℕ) : Option Projection :=
  match target with
  | .vector => some (buildVector c mutationId factKey version)
  | .graph => buildGraph c mutationId factKey version

theorem build_spec {target : MemoryTarget} {c : MutationCommand} {mutationId : ℕ} {factKey : String}
    {version : ℕ} {p : Projection} (h : build target c mutationId factKey version = some p) :
    p.mutationId = mutationId ∧ p.factKey = factKey ∧ p.controlVersion = version ∧
      p.slot.target = target := by
  cases target with
  | vector =>
    cases h
    exact ⟨rfl, rfl, rfl, rfl⟩
  | graph =>
    simp only [build, buildGraph, Option.bind_eq_bind, Option.bind_eq_some_iff] at h
    obtain ⟨value, -, targetType, -, sourceType, -, relationType, -, u, -, hp⟩ := h
    cases hp
    exact ⟨rfl, rfl, rfl, rfl⟩

end CountyFlow.Memory
