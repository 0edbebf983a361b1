import CountyFlow.Lib.Table
import CountyFlow.Memory.Model

/-!
# The control repository and the two projection stores

`Store` holds the tables of `SqlAlchemyMemoryControlRepository` and the rows of the vector store
and the graph.  Every function of the repository is one transaction: it answers with the store
after its commit, or raises and leaves the store alone.  Attempts are written and never read, so
they are left out, and so are the columns nothing here reads.
-/

namespace CountyFlow.Memory

open CountyFlow.Lib

/-- A row of `shared_memory_facts`. -/
structure Fact where
  factKey : String
  category : MemoryCategory
  factKind : MemoryFactKind
  subjectType : String
  subjectId : String
  predicate : String
  objectType : Option String
  objectId : Option String
  valueJson : List (String × JsonValue)
  contentFingerprint : Content
  version : ℕ
  confidence : ℚ
  status : MemoryFactStatus
  expiresAt : Option ℤ
  vectorMemoryId : Option String
  graphFactKey : Option String
  lastMutationId : ℕ
  updatedAt : ℤ
  deriving DecidableEq

def Fact.ofCommand (c : MutationCommand) (factKey : String) (version : ℕ) (status : MemoryFactStatus)
    (mutationId : ℕ) (now : ℤ) : Fact where
  factKey := factKey
  category := c.category
  factKind := c.factKind
  subjectType := c.subjectType
  subjectId := c.subjectId
  predicate := c.predicate
  objectType := c.objectType
  objectId := c.objectId
  valueJson := c.valueJson
  contentFingerprint := c.contentFingerprint
  version := version
  confidence := numeric54 c.confidence.value
  status := status
  expiresAt := c.storedExpiresAt
  vectorMemoryId := c.vectorMemoryId
  graphFactKey := c.graphFactKey
  lastMutationId := mutationId
  updatedAt := now

/-- A row of `memory_mutations`; `command` is `proposed_fact_json`. -/
structure Mutation where
  mutationId : ℕ
  factKey : String
  command : MutationCommand
  decision : Option MutationDecision
  reasonCode : Option String
  beforeVersion : Option ℕ
  afterVersion : Option ℕ
  status : MutationStatus
  vectorStatus : ProjectionStatus
  graphStatus : ProjectionStatus
  errorCode : Option String
  errorSummary : Option String
  deriving DecidableEq

/-- A row of `memory_evidence`; the fact it is linked to is held by its key. -/
structure Evidence where
  mutationId : ℕ
  fingerprint : EvidenceFingerprint
  factKey : Option String
  deriving DecidableEq

/-- A point of the collection or a relation of the graph. -/
structure ProjectionRow where
  projection : Projection
  status : ProjectionStatus
  deriving DecidableEq

namespace ProjectionRow

def slot (row : ProjectionRow) : Slot := row.projection.slot

/-- `activate`: whatever has the id becomes `ACTIVE`. -/
def activate (id : ProjectionId) (row : ProjectionRow) : ProjectionRow :=
  if row.slot.projectionId = id then { row with status := .active } else row

/-- `retire_previous`: older `ACTIVE` projections of the fact become `RETIRED`. -/
def retire (p : Projection) (row : ProjectionRow) : ProjectionRow :=
  if row.slot.target = p.slot.target ∧ row.projection.factKey = p.factKey ∧ row.status = .active ∧
      row.projection.controlVersion < p.controlVersion then
    { row with status := .retired }
  else row

theorem activate_projection (id : ProjectionId) (row : ProjectionRow) :
    (activate id row).projection = row.projection := by
  unfold activate
  split <;> rfl

theorem retire_projection (p : Projection) (row : ProjectionRow) :
    (retire p row).projection = row.projection := by
  unfold retire
  split <;> rfl

end ProjectionRow

structure Store where
  facts : Table Fact Fact.factKey
  mutations : Table Mutation Mutation.mutationId
  evidence : List Evidence
  projections : Table ProjectionRow ProjectionRow.slot
  nextId : ℕ

/-- A new row of `begin_or_replay`. -/
def Mutation.requested (c : MutationCommand) (factKey : String) (mutationId : ℕ) : Mutation where
  mutationId := mutationId
  factKey := factKey
  command := c
  decision := none
  reasonCode := none
  beforeVersion := none
  afterVersion := none
  status := .pending
  vectorStatus := if .vector ∈ c.targets then .pending else .notRequired
  graphStatus := if .graph ∈ c.targets then .pending else .notRequired
  errorCode := none
  errorSummary := none

/-- What `record_decision` writes. -/
def Mutation.decided (row : Mutation) (d : MemoryDecision) : Mutation where
  mutationId := row.mutationId
  factKey := row.factKey
  command := row.command
  decision := some d.decision
  reasonCode := some d.reasonCode
  beforeVersion := d.beforeVersion
  afterVersion := d.afterVersion
  status :=
    match d.decision with
    | .noop => .applied
    | .reject => .rejected
    | .conflictReview => .conflict
    | .create | .merge | .replace => row.status
  vectorStatus := if d.requiresProjection then row.vectorStatus else .notRequired
  graphStatus := if d.requiresProjection then row.graphStatus else .notRequired
  errorCode := row.errorCode
  errorSummary := row.errorSummary

/-- The column `update_projection_status` writes. -/
def Mutation.setProjection (row : Mutation) (target : MemoryTarget) (status : ProjectionStatus) :
    Mutation :=
  match target with
  | .vector => { row with vectorStatus := status }
  | .graph => { row with graphStatus := status }

def Mutation.projectionStatus (row : Mutation) : MemoryTarget → ProjectionStatus
  | .vector => row.vectorStatus
  | .graph => row.graphStatus

namespace Store

def empty : Store := ⟨Table.empty, Table.empty, [], Table.empty, 0⟩

/-- `begin_or_replay`: the mutation, and whether it was there before. -/
def beginOrReplay (s : Store) (c : MutationCommand) (factKey : String) :
    Except MemoryError (Store × ℕ × Bool) :=
  match s.mutations.rows.find? fun row => row.command.idempotencyKey = c.idempotencyKey with
  | some existing =>
    if existing.command.payloadFingerprint = c.payloadFingerprint then
      .ok (s, existing.mutationId, true)
    else .error (.idempotencyConflict existing.command.idempotencyKey)
  | none =>
    match s.mutations.add (.requested c factKey s.nextId) with
    | some mutations =>
      .ok ({ s with mutations := mutations, nextId := s.nextId + 1 }, s.nextId, false)
    | none => .error .interrupted

def getMutation (s : Store) (mutationId : ℕ) : Except MemoryError Mutation :=
  match s.mutations.find mutationId with
  | some row => .ok row
  | none => .error (.unknownMutation mutationId)

def loadFact (s : Store) (factKey : String) : Option FactSnapshot :=
  (s.facts.find factKey).map fun fact =>
    { factKey := fact.factKey
      version := fact.version
      contentFingerprint := fact.contentFingerprint
      confidence := fact.confidence
      status := fact.status
      updatedAt := fact.updatedAt
      expiresAt := fact.expiresAt
      evidenceFingerprints :=
        (s.evidence.filter fun e => e.factKey = some factKey).map Evidence.fingerprint }

/-- `_set_mutation_fields`, and every other write of one row of `memory_mutations`. -/
def setMutation (s : Store) (mutationId : ℕ) (f : Mutation → Mutation) :
    Except MemoryError (Store × Mutation) :=
  match s.mutations.find mutationId with
  | some row => .ok ({ s with mutations := s.mutations.replace (f row) }, f row)
  | none => .error (.unknownMutation mutationId)

def recordDecision (s : Store) (mutationId : ℕ) (d : MemoryDecision) :
    Except MemoryError (Store × Mutation) :=
  s.setMutation mutationId fun row => row.decided d

def appendEvidence (s : Store) (mutationId : ℕ) (c : MutationCommand) : Store :=
  if s.evidence.any fun e => e.mutationId = mutationId ∧ e.fingerprint = c.evidenceFingerprint then s
  else { s with evidence := s.evidence ++ [⟨mutationId, c.evidenceFingerprint, none⟩] }

def markApplying (s : Store) (mutationId : ℕ) : Except MemoryError (Store × Mutation) :=
  s.setMutation mutationId fun row => { row with status := .applying }

def updateProjectionStatus (s : Store) (mutationId : ℕ) (target : MemoryTarget)
    (status : ProjectionStatus) : Except MemoryError (Store × Mutation) :=
  s.setMutation mutationId fun row => row.setProjection target status

def markPartial (s : Store) (mutationId : ℕ) (errorCode errorSummary : String) :
    Except MemoryError (Store × Mutation) :=
  s.setMutation mutationId fun row =>
    { row with
      status := .partly
      errorCode := some errorCode
      errorSummary := some errorSummary }

/-- The evidence of a mutation that is not linked to a fact yet gets its fact. -/
def linkEvidence (evidence : List Evidence) (mutationId : ℕ) (factKey : String) : List Evidence :=
  evidence.map fun e =>
    if e.mutationId = mutationId ∧ e.factKey = none then { e with factKey := some factKey } else e

/-- The fact is written and the mutation is `FINALIZING`. -/
def writeFact (s : Store) (mutation : Mutation) (fact : Fact) : Store :=
  { s with
    facts := s.facts.upsert fact
    mutations := s.mutations.replace
      { mutation with status := .finalizing, errorCode := none, errorSummary := none }
    evidence := linkEvidence s.evidence mutation.mutationId fact.factKey }

/-- `finalize_canonical`; the decision it is given proposes an `ACTIVE` fact. -/
def finalizeCanonical (s : Store) (mutationId : ℕ) (c : MutationCommand) (factKey : String)
    (beforeVersion : Option ℕ) (afterVersion : ℕ) (now : ℤ) : Except MemoryError Store :=
  match s.mutations.find mutationId with
  | none => .error (.unknownMutation mutationId)
  | some mutation =>
    let fact := s.facts.find factKey
    if ∃ f ∈ fact, f.lastMutationId = mutationId ∧ f.version = afterVersion then
      .ok { s with mutations := s.mutations.replace { mutation with status := .finalizing } }
    else if fact.map Fact.version ≠ beforeVersion then
      .error (.versionConflict factKey beforeVersion (fact.map Fact.version))
    else
      match fact with
      | none => .ok (s.writeFact mutation
          (.ofCommand c factKey (if afterVersion = 0 then 1 else afterVersion) .active mutationId now))
      | some f => .ok (s.writeFact mutation
          (.ofCommand c factKey (f.version + 1) .active mutationId now))

def createPendingReview (s : Store) (mutationId : ℕ) (c : MutationCommand) (factKey : String)
    (now : ℤ) : Store :=
  if (s.facts.find factKey).isSome then s
  else
    { s with
      facts := s.facts.upsert (.ofCommand c factKey 1 .pendingReview mutationId now)
      evidence := linkEvidence s.evidence mutationId factKey }

def markApplied (s : Store) (mutationId : ℕ) : Except MemoryError (Store × Mutation) :=
  match s.mutations.find mutationId with
  | none => .error (.unknownMutation mutationId)
  | some row =>
    if row.vectorStatus ∉ [.notRequired, .active] ∨ row.graphStatus ∉ [.notRequired, .active] then
      .error (.projectionIncomplete mutationId)
    else if ∃ fact ∈ s.facts.find row.factKey, some fact.version = row.afterVersion then
      s.setMutation mutationId fun row =>
        { row with status := .applied, errorCode := none, errorSummary := none }
    else .error (.projectionIncomplete mutationId)

/-! ### The projection stores -/

/-- `stage`: an upsert of the point, a merge of the relation. -/
def stage (s : Store) (p : Projection) : Store :=
  { s with projections := s.projections.upsert ⟨p, .staged⟩ }

def probe (s : Store) (target : MemoryTarget) (mutationId controlVersion : ℕ) :
    Option ProjectionStatus :=
  (s.projections.rows.find? fun row => row.slot.target = target ∧
    row.projection.mutationId = mutationId ∧ row.projection.controlVersion = controlVersion).map
      ProjectionRow.status

def activate (s : Store) (p : Projection) : Store :=
  { s with
    projections := s.projections.modify (ProjectionRow.activate p.slot.projectionId) fun row =>
      congrArg Projection.slot (ProjectionRow.activate_projection _ row) }

def retirePrevious (s : Store) (p : Projection) : Store :=
  { s with
    projections := s.projections.modify (ProjectionRow.retire p) fun row =>
      congrArg Projection.slot (ProjectionRow.retire_projection p row) }

end Store

end CountyFlow.Memory
