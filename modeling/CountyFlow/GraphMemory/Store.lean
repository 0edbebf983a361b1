import CountyFlow.Lib.Binary64
import CountyFlow.Lib.Runs
import CountyFlow.Core.Json
import CountyFlow.Memory.Model
import CountyFlow.Memory.Times
import CountyFlow.Worker.Ledger

/-!
# The graph memory in Neo4j

Nodes are merged on their `entity_key`.  Two writers merge relations: `Neo4jGraphMemoryRepository` on the
type and the end points, `Neo4jMemoryProjection` on the `projection_id`, too.  Two readers rebuild them,
`find_related` from the end points of a relation and `find_paths` from the nodes of a path.  Both put
another value in the place of one that is false.

The answers come in the order of the store.  `find_paths` leaves the order open; the `ORDER BY` of
`find_related`, which decides what its `LIMIT` cuts off, is left out.
-/

namespace CountyFlow.GraphMemory

open CountyFlow.Lib
open CountyFlow.Core (State Value)
open CountyFlow.Memory (EntityType RelationType AwareDatetime)
open CountyFlow.Worker.Db (strip)

/-! ### Entities and relations -/

inductive GraphError where
  | unsupportedEntityType (value : String)
  | valueError (message : String)
  | keyError (key : String)
  deriving DecidableEq, Repr

/-- The text of an `EntityType`. -/
def entityTypeText : EntityType → String
  | .driver => "Driver"
  | .vehicle => "Vehicle"
  | .route => "Route"
  | .weather => "Weather"
  | .roadCondition => "RoadCondition"
  | .station => "Station"
  | .anomaly => "Anomaly"
  | .resolution => "Resolution"
  | .dispatchOrder => "DispatchOrder"
  | .policyRule => "PolicyRule"
  | .userPreference => "UserPreference"

/-- `json.loads(json.dumps(properties, ensure_ascii=False, sort_keys=True))`, `none` where the properties are
refused; the order of the keys is no part of a dictionary. -/
def reread (properties : State) : Option Value := (Value.dict properties).given.copy

structure GraphEntity where
  entityType : EntityType
  entityId : String
  displayName : String
  properties : State
  id_not_empty : strip entityId ≠ ""
  name_not_empty : strip displayName ≠ ""
  serializable : (reread properties).isSome

/-- `GraphEntity(entity_type, entity_id, display_name, properties)`. -/
def GraphEntity.create (entityType entityId displayName : String) (properties : State) :
    Except GraphError GraphEntity :=
  match EntityType.ofValue entityType with
  | none => .error (.unsupportedEntityType entityType)
  | some entityType =>
    if hid : strip entityId = "" then .error (.valueError "Graph entity_id must not be empty")
    else if hname : strip displayName = "" then .error (.valueError "Graph display_name must not be empty")
    else if hjson : (reread properties).isSome then
      .ok ⟨entityType, entityId, displayName, properties, hid, hname, hjson⟩
    else .error (.valueError "Graph entity properties must be JSON serializable")

def GraphEntity.entityKey (entity : GraphEntity) : String :=
  entityTypeText entity.entityType ++ ":" ++ entity.entityId

structure RelationValues where
  source : GraphEntity
  relationType : RelationType
  target : GraphEntity
  confidence : ℚ
  sourceType : String
  evidence : Option String
  version : ℤ
  timestamp : String

structure GraphRelation extends RelationValues where
  confidence_range : 0 ≤ confidence ∧ confidence ≤ 1
  version_positive : 1 ≤ version

def GraphRelation.create (values : RelationValues) : Except GraphError GraphRelation :=
  if hconfidence : 0 ≤ values.confidence ∧ values.confidence ≤ 1 then
    if hversion : 1 ≤ values.version then .ok ⟨values, hconfidence, hversion⟩
    else .error (.valueError "Graph relation version must be positive")
  else .error (.valueError "Graph relation confidence must be between 0 and 1")

structure GraphPath where
  entities : List GraphEntity
  relations : List GraphRelation

def GraphPath.create (entities : List GraphEntity) (relations : List GraphRelation) :
    Except GraphError GraphPath :=
  if relations = [] ∨ entities.length ≠ relations.length + 1 then
    .error (.valueError "Graph path must contain one more entity than relation")
  else .ok ⟨entities, relations⟩

/-- A Decimal confidence is held by its value. -/
structure GraphProjection where
  mutationId : String
  factKey : String
  controlVersion : ℤ
  source : GraphEntity
  relationType : RelationType
  target : GraphEntity
  confidence : ℚ
  sourceType : String
  evidence : Option String
  expiresAt : Option AwareDatetime
  timestamp : AwareDatetime

def GraphProjection.values (p : GraphProjection) : RelationValues where
  source := p.source
  relationType := p.relationType
  target := p.target
  confidence := binary64 p.confidence
  sourceType := p.sourceType
  evidence := p.evidence
  version := p.controlVersion
  timestamp := Memory.isoformat p.timestamp

/-! ### The store -/

/-- A node; `properties_json` is held by the value that `json.loads` makes of it. -/
structure Node where
  entityKey : String
  entityType : String
  entityId : String
  displayName : String
  propertiesJson : Option Value

def Node.of (entity : GraphEntity) : Node where
  entityKey := entity.entityKey
  entityType := entityTypeText entity.entityType
  entityId := entity.entityId
  displayName := entity.displayName
  propertiesJson := reread entity.properties

inductive ProjectionStatus where
  | staged
  | active
  | retired
  deriving DecidableEq, Repr

/-- A relation between the nodes of two keys; what is `none` is not set. -/
structure Edge where
  source : String
  target : String
  relationType : RelationType
  projectionId : Option String := none
  controlFactKey : Option String := none
  controlVersion : Option ℤ := none
  mutationId : Option String := none
  projectionStatus : Option ProjectionStatus := none
  expiresAt : Option AwareDatetime := none
  confidence : Option ℚ := none
  sourceType : Option String := none
  evidence : Option String := none
  version : Option ℤ := none
  timestamp : Option String := none

structure Store where
  nodes : Table Node Node.entityKey
  edges : List Edge

/-- `MERGE … SET`: every edge that matches is set, and where there is none a new one. -/
def merge (matched : Edge → Bool) (new : Edge) (set : Edge → Edge) (edges : List Edge) : List Edge :=
  if edges.any matched then edges.map fun e => if matched e then set e else e else edges ++ [set new]

def Edge.links (source target : String) (relationType : RelationType) (e : Edge) : Bool :=
  e.source = source ∧ e.target = target ∧ e.relationType = relationType

def Edge.setValues (values : RelationValues) (e : Edge) : Edge :=
  { e with
    confidence := some values.confidence
    sourceType := some values.sourceType
    evidence := values.evidence
    version := some values.version
    timestamp := some values.timestamp }

namespace Store

def upsertEntity (s : Store) (entity : GraphEntity) : Store := { s with nodes := s.nodes.upsert (.of entity) }

def upsertRelation (s : Store) (relation : GraphRelation) : Store :=
  let source := relation.source.entityKey
  let target := relation.target.entityKey
  if (s.nodes.find source).isSome ∧ (s.nodes.find target).isSome then
    { s with
      edges := merge (Edge.links source target relation.relationType)
        { source := source, target := target, relationType := relation.relationType }
        (Edge.setValues relation.toRelationValues) s.edges }
  else s

variable (projectionId : String → ℤ → String)

/-- `stage`; `projectionId` is the UUID of the fact and the version. -/
def stage (s : Store) (p : GraphProjection) : Store :=
  let s := (s.upsertEntity p.source).upsertEntity p.target
  let source := p.source.entityKey
  let target := p.target.entityKey
  let id := some (projectionId p.factKey p.controlVersion)
  { s with
    edges := merge (fun e => e.links source target p.relationType ∧ e.projectionId = id)
      { source := source, target := target, relationType := p.relationType, projectionId := id }
      (fun e => { e.setValues p.values with
        controlFactKey := some p.factKey
        controlVersion := some p.controlVersion
        mutationId := some p.mutationId
        projectionStatus := some .staged
        expiresAt := p.expiresAt }) s.edges }

def activate (s : Store) (p : GraphProjection) : Store :=
  { s with
    edges := s.edges.map fun e =>
      if e.projectionId = some (projectionId p.factKey p.controlVersion) then
        { e with projectionStatus := some .active }
      else e }

def retirePrevious (s : Store) (p : GraphProjection) : Store :=
  { s with
    edges := s.edges.map fun e =>
      if e.controlFactKey = some p.factKey ∧ e.projectionStatus = some .active ∧
          e.controlVersion.any (· < p.controlVersion) then
        { e with projectionStatus := some .retired }
      else e }

end Store

/-! ### Reading -/

/-- `_entity`; `or "{}"` is for a node without the property. -/
def entity (node : Node) : Except GraphError GraphEntity :=
  match node.propertiesJson with
  | none => GraphEntity.create node.entityType node.entityId node.displayName []
  | some (.dict properties) => GraphEntity.create node.entityType node.entityId node.displayName properties
  | some _ => .error (.valueError "Graph entity properties must be JSON serializable")

/-- `value or default`, of a number. -/
def orElse {α : Type} [Zero α] [DecidableEq α] (value : Option α) (default : α) : α :=
  if value.getD 0 = 0 then default else value.getD 0

/-- `value or default`, of a text. -/
def orText (value : Option String) (default : String) : String :=
  if value.getD "" = "" then default else value.getD ""

/-- The relation that both readers build of an edge between two entities. -/
def rebuilt (source target : GraphEntity) (e : Edge) : Except GraphError GraphRelation :=
  GraphRelation.create
    { source := source
      relationType := e.relationType
      target := target
      confidence := orElse e.confidence 1
      sourceType := orText e.sourceType "graph"
      evidence := e.evidence
      version := orElse e.version 1
      timestamp := orText e.timestamp "" }

/-- `_relation`, of the end points of an edge. -/
def relation (source target : Node) (e : Edge) : Except GraphError GraphRelation := do
  let source ← entity source
  let target ← entity target
  rebuilt source target e

/-- `by_key[key]`: of equal keys the last one counts. -/
def byKey (entities : List GraphEntity) (key : String) : Except GraphError GraphEntity :=
  match entities.reverse.find? fun entity => entity.entityKey = key with
  | some entity => .ok entity
  | none => .error (.keyError key)

def hop (entities : List GraphEntity) (e : Edge) : Except GraphError GraphRelation := do
  let source ← byKey entities e.source
  let target ← byKey entities e.target
  rebuilt source target e

/-- A path as it is matched. -/
structure Route where
  start : Node
  hops : List (Edge × Node)

def Route.nodes (r : Route) : List Node := r.start :: r.hops.map Prod.snd

def Route.edges (r : Route) : List Edge := r.hops.map Prod.fst

/-- `_path`. -/
def path (r : Route) : Except GraphError GraphPath := do
  let entities ← r.nodes.mapM entity
  let relations ← r.edges.mapM (hop entities)
  GraphPath.create entities relations

/-- Neither a projection that is not `ACTIVE` nor one that has expired. -/
def Edge.visible (now : ℤ) (e : Edge) : Bool :=
  (e.projectionStatus.all (· = .active)) ∧ e.expiresAt.all (now < ·.instant)

/-- The nodes that an edge leads to from one of its ends, in either direction. -/
def Edge.others (e : Edge) (from_ : String) : List String :=
  (if e.source = from_ then [e.target] else []) ++ if e.target = from_ then [e.source] else []

namespace Store

/-- The end points of an edge, read by `_relation`. -/
def related (s : Store) (e : Edge) : Except GraphError GraphRelation :=
  match s.nodes.find e.source, s.nodes.find e.target with
  | some source, some target => relation source target e
  | none, _ => .error (.keyError e.source)
  | _, none => .error (.keyError e.target)

def findRelated (s : Store) (now : ℤ) (entityKeys : List String) (limit : ℤ) :
    Except GraphError (List GraphRelation) :=
  if limit ≤ 0 then .error (.valueError "limit must be positive")
  else
    let matched := s.edges.filter fun e => e.visible now ∧ (e.source ∈ entityKeys ∨ e.target ∈ entityKeys)
    (matched.take limit.toNat).mapM s.related

/-- The ways on from a node, over no node twice. -/
def hopsFrom (s : Store) (now : ℤ) : ℕ → String → List String → List (List (Edge × Node))
  | 0, _, _ => []
  | maxHops + 1, key, seen =>
    (s.edges.filter (Edge.visible now)).flatMap fun e => (e.others key).flatMap fun next =>
      match s.nodes.find next with
      | none => []
      | some node =>
        if next ∈ seen then []
        else [(e, node)] :: (s.hopsFrom now maxHops next (next :: seen)).map ((e, node) :: ·)

def routes (s : Store) (now : ℤ) (startKey : String) (maxHops : ℕ) : List Route :=
  match s.nodes.find startKey with
  | none => []
  | some start => (s.hopsFrom now maxHops startKey [startKey]).map (Route.mk start)

def findPaths (s : Store) (now : ℤ) (startKey : String) (maxHops limit : ℤ) :
    Except GraphError (List GraphPath) :=
  if ¬ (1 ≤ maxHops ∧ maxHops ≤ 3) then .error (.valueError "max_hops must be between 1 and 3")
  else if limit ≤ 0 then .error (.valueError "limit must be positive")
  else ((s.routes now startKey maxHops.toNat).take limit.toNat).mapM path

end Store

end CountyFlow.GraphMemory
