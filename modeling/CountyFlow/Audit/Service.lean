import CountyFlow.Core.Number
import CountyFlow.Core.Schema
import CountyFlow.Graph.State

/-!
# The audit of a mapping

`AuditService.audit` of `app/audit/service.py` on whatever mapping it is given: every key may be absent or
hold a value of another type.  A list is any `Sequence` that is not a text.
-/

namespace CountyFlow.Audit

open CountyFlow.Core
open CountyFlow.Worker.Db (strip)
open CountyFlow.Graph (AuditChecks)
open CountyFlow.Worker (AuditResult)

/-- What the audit raises: `TypeError` for a value without a hash in a set, `InvalidOperation` for a
comparison with a number that is none, and what writing the record raises. -/
inductive AuditError where
  | typeError
  | invalidOperation
  | persistence (message : String)
  deriving DecidableEq, Repr

/-! ### Readers -/

def mapping : Value → State
  | .dict entries => entries
  | _ => []

def text : Value → Option String
  | .str s => if s = "" then none else some s
  | _ => none

def integer : Value → Option ℤ
  | .int z => some z
  | _ => none

def stringList (value : Value) : List String :=
  value.items.filterMap fun item =>
    match item with
    | .str s => some s
    | _ => none

/-- `_decimal`: `str(value)` as a number.  The text of a container is none, and neither is an integer of
more than 4300 digits. -/
def decimal : Value → Option Number
  | .none | .bool _ | .list _ | .dict _ => none
  | .int z =>
    if 4300 < (toString z.natAbs).length then none
    else some (.finite ⟨decide (z < 0), z.natAbs, 0⟩)
  | .num s | .str s | .object s => Number.ofText (strip s)

/-- `value in {…}`, a set of texts. -/
def isOneOf (value : Value) (options : List String) : Except AuditError Bool :=
  match value with
  | .list _ | .dict _ => .error .typeError
  | .str s => .ok (decide (s ∈ options))
  | _ => .ok false

def hasMemory (value : Value) (memoryId : String) : Bool :=
  value.items.any fun item => item.isDict && decide (item.get "memory_id" = .str memoryId)

def candidate (value : Value) (vehicleId : Option String) : State :=
  match vehicleId with
  | none => []
  | some vehicleId => mapping ((value.items.find? fun item =>
    item.isDict && decide (text (item.get "vehicle_id") = some vehicleId)).getD .none)

/-- `_road_edges_by_id`: the last edge of an id. -/
def roadEdge (roadEdges : Value) (edgeId : String) : Option State :=
  (roadEdges.items.reverse.find? fun item =>
    item.isDict && decide (text (item.get "edge_id") = some edgeId)).map mapping

/-- An edge of the network leads from a node of the path to the next one. -/
def connects (roadEdges : Value) (nodeIds : List String) (edgeId : String) (index : ℕ) : Bool :=
  match roadEdge roadEdges edgeId with
  | none => false
  | some edge =>
    let start := text (edge.get "from_node_id")
    let stop := text (edge.get "to_node_id")
    let ends := (nodeIds[index]?, nodeIds[index + 1]?)
    decide ((start, stop) = ends ∨ (edge.get "bidirectional" = .bool true ∧ (stop, start) = ends))

def pathConnects (nodeIds edgeIds : List String) (roadEdges : Value) : Bool :=
  !edgeIds.isEmpty && decide (nodeIds.length = edgeIds.length + 1) &&
    edgeIds.zipIdx.all fun entry => connects roadEdges nodeIds entry.1 entry.2

/-- `all` over the edges of a path, up to the first one that is not open. -/
def edgesAreOpen (roadEdges : Value) : List String → Except AuditError Bool
  | [] => .ok true
  | edgeId :: rest =>
    match roadEdge roadEdges edgeId with
    | none => .ok false
    | some edge => do
        if ← isOneOf (edge.get "status") ["OPEN", "CONGESTED", "RESTRICTED"] then
          edgesAreOpen roadEdges rest
        else return false

def pathEdgesAreOpen (edgeIds : List String) (roadEdges : Value) : Except AuditError Bool :=
  if edgeIds.isEmpty then .ok false else edgesAreOpen roadEdges edgeIds

/-! ### The checks -/

section Checks

variable (evidence : State)

/-- `dispatch_result`. -/
def dispatch : State := mapping (evidence.get "dispatch_result")

/-- `dispatch.get("executed") is True`. -/
def executed : Bool := decide ((dispatch evidence).get "executed" = .bool true)

def decision : Option String := text (evidence.get "decision")

def targetRouteId : Option String := text ((dispatch evidence).get "target_route_id")

/-- The dispatch has to be reviewed in any case. -/
def underReview : Bool :=
  decide (decision evidence = some "MANUAL_REVIEW" ∨
    evidence.get "requires_manual_review" = .bool true ∨
    text (evidence.get "error_code") ∈ [some "DISPATCH_CONFLICT", some "DISPATCH_VERSION_CONFLICT",
      some "VEHICLE_RESERVATION_CONFLICT"])

def issue : Option String :=
  text (evidence.get "identified_issue") <|> text (evidence.get "anomaly_type")

def auditedCandidate : State :=
  candidate (evidence.get "candidate_vehicles") (text ((dispatch evidence).get "target_vehicle_id"))

/-- `exclusion_reasons` is a sequence without elements. -/
def hasNoExclusions (candidate : State) : Bool := decide (candidate.get "exclusion_reasons" = .list [])

/-- `vehicle_assignment`; the status of the driver is looked at when all before it is right. -/
def vehicleAssignment : Except AuditError Bool :=
  let original := text ((dispatch evidence).get "original_vehicle_id") <|>
    text (evidence.get "vehicle_id")
  let target := text ((dispatch evidence).get "target_vehicle_id")
  let driver := text ((dispatch evidence).get "target_driver_id")
  let candidate := auditedCandidate evidence
  let selectedVehicle := text (evidence.get "selected_vehicle_id")
  let selectedDriver := text (evidence.get "selected_driver_id")
  if original ≠ none ∧ target ≠ none ∧ target ≠ original ∧
      text (candidate.get "vehicle_id") = selectedVehicle ∧ selectedVehicle = target ∧
      text (candidate.get "driver_id") = selectedDriver ∧ selectedDriver = driver ∧
      candidate.get "vehicle_status" = .str "AVAILABLE" then
    (isOneOf (candidate.get "driver_status") ["ON_DUTY", "AVAILABLE"]).map fun onDuty =>
      onDuty && decide (candidate.get "eligible" = .bool true) && hasNoExclusions candidate
  else .ok false

def capacityConstraint : Except AuditError Bool :=
  let candidate := auditedCandidate evidence
  let remaining :=
    if candidate.get "remaining_capacity_kg" ≠ .none then candidate.get "remaining_capacity_kg"
    else candidate.get "remaining_load_kg"
  match decimal (evidence.get "cargo_weight_kg"), decimal remaining with
  | some weight, some remaining =>
    match weight.le remaining with
    | none => .error .invalidOperation
    | some fits => .ok (fits && decide (text (evidence.get "cargo_type") ≠ some "COLD_CHAIN" ∨
        text (candidate.get "cargo_capability") = some "COLD_CHAIN"))
  | _, _ => .ok false

def blockedEdgeIds : List String := stringList (evidence.get "blocked_edge_ids")

def pathEdgeIds : List String := stringList ((evidence.get "recommended_path").get "edge_ids")

def pathNodeIds : List String := stringList ((evidence.get "recommended_path").get "node_ids")

def routeConnectivity : Bool :=
  pathConnects (pathNodeIds evidence) (pathEdgeIds evidence) (evidence.get "road_network_edges")

def blockedEdgeExclusion : Except AuditError Bool :=
  if ∀ edgeId ∈ pathEdgeIds evidence, edgeId ∉ blockedEdgeIds evidence then
    pathEdgesAreOpen (pathEdgeIds evidence) (evidence.get "road_network_edges")
  else .ok false

/-- `route_consistency` of a dispatch that takes the recommended route. -/
def rerouted : Bool :=
  decide (text (evidence.get "recommended_route") ≠ none ∧ executed evidence = true ∧
    targetRouteId evidence = text (evidence.get "recommended_route"))

/-- `route_consistency` of a dispatch that keeps its route. -/
def keptRoute : Bool :=
  decide (executed evidence = true ∧ targetRouteId evidence = text (evidence.get "route_id"))

def memoryConsistency : Bool :=
  match text (evidence.get "adopted_memory_id") with
  | none => false
  | some memoryId => hasMemory (evidence.get "memory_results") memoryId

def fallbackConsistency : Bool := (text (evidence.get "fallback_reason")).isSome

end Checks

/-! ### The blocks of `_evaluate` -/

/-- A block notes its checks, and rejects with a reason or passes on. -/
abbrev Block := AuditChecks → Except AuditError (AuditChecks × Option String)

section Blocks

variable (evidence : State)

def brokenDown : Bool := decide (issue evidence = some "VEHICLE_BREAKDOWN")

def roadBlocked : Bool :=
  decide (issue evidence = some "ROAD_BLOCKED") || !(blockedEdgeIds evidence).isEmpty

/-- A block with two checks that are made together when `applies`. -/
def pair (applies : Bool) (first second : Except AuditError Bool)
    (note : Bool → Bool → AuditChecks → AuditChecks) (firstReason secondReason : String) : Block :=
  fun checks =>
    if applies then do
      let a ← first
      let b ← second
      return (note a b checks, if !a then some firstReason else if !b then some secondReason else none)
    else .ok (checks, none)

def breakdownBlock : Block :=
  pair (brokenDown evidence) (vehicleAssignment evidence) (capacityConstraint evidence)
    (fun assigned carried checks =>
      { checks with vehicleAssignment := assigned, capacityConstraint := carried })
    "Replacement vehicle assignment is inconsistent."
    "Replacement vehicle capacity or cargo capability is invalid."

def roadBlock : Block :=
  pair (roadBlocked evidence) (.ok (routeConnectivity evidence)) (blockedEdgeExclusion evidence)
    (fun connected excluded checks =>
      { checks with routeConnectivity := connected, blockedEdgeExclusion := excluded })
    "Recommended path is not connected in the road network."
    "Recommended path includes a blocked edge."

def noSafeRouteBlock : Block := fun checks =>
  if decision evidence = some "NO_SAFE_ROUTE" ∧ executed evidence = true then
    .ok ({ checks with routeConsistency := false },
      some "No-safe-route decision cannot execute a dispatch.")
  else .ok (checks, none)

/-- A block with one check that is made when `applies`. -/
def single (applies passes : Bool) (note : AuditChecks → AuditChecks) (reason : String) : Block :=
  fun checks =>
    if applies then .ok (note checks, if passes then none else some reason) else .ok (checks, none)

def rerouteBlock : Block :=
  single (decide (decision evidence = some "REROUTE")) (rerouted evidence)
    (fun checks => { checks with routeConsistency := rerouted evidence })
    "Recommended route and dispatch target do not match."

def keepRouteBlock : Block :=
  single (decide (decision evidence = some "KEEP_ROUTE")) (keptRoute evidence)
    (fun checks => { checks with routeConsistency := keptRoute evidence })
    "Keep-route dispatch target does not match the original route."

def memoryBlock : Block :=
  single (decide (evidence.get "memory_adopted" = .bool true)) (memoryConsistency evidence)
    (fun checks => { checks with memoryConsistency := memoryConsistency evidence })
    "Adopted memory is absent from recalled memory results."

def fallbackBlock : Block :=
  single (decide (evidence.get "fallback_used" = .bool true)) (fallbackConsistency evidence)
    (fun checks => { checks with fallbackConsistency := fallbackConsistency evidence })
    "Fallback dispatch requires a fallback reason."

def blocks : List Block :=
  [breakdownBlock evidence, roadBlock evidence, noSafeRouteBlock evidence, rerouteBlock evidence,
    keepRouteBlock evidence, memoryBlock evidence, fallbackBlock evidence]

def initialChecks : AuditChecks := ⟨true, true, true, executed evidence, true, true, true, true⟩

end Blocks

/-- What `_evaluate` answers, with the checks it has noted. -/
structure Verdict where
  status : AuditResult
  reason : String
  requiresManualReview : Bool
  checks : AuditChecks
  deriving DecidableEq

/-- The blocks one after another, up to the first one that rejects. -/
def verdict (checks : AuditChecks) : List Block → Except AuditError Verdict
  | [] => .ok ⟨.approved, "Audit checks passed.", false, checks⟩
  | block :: rest =>
    match block checks with
    | .error e => .error e
    | .ok (noted, some reason) => .ok ⟨.rejected, reason, true, noted⟩
    | .ok (noted, none) => verdict noted rest

def evaluate (evidence : State) : Except AuditError Verdict :=
  if underReview evidence then
    .ok ⟨.reviewRequired, "Dispatch requires manual review.", true, initialChecks evidence⟩
  else verdict (initialChecks evidence) (blocks evidence)

/-- `AuditResult`. -/
structure Report where
  auditStatus : AuditResult
  passed : Bool
  reason : String
  checks : AuditChecks
  dispatchId : Option ℤ
  requiresManualReview : Bool
  auditRecordId : Option ℕ
  deriving DecidableEq

/-- `audit`; `recorded` is what `_persist_if_possible` returns or raises, with the text of the evidence. -/
def audit (evidence : State) (recorded : Except AuditError (Option ℕ)) : Except AuditError Report := do
  let verdict ← evaluate evidence
  let recordId ← recorded
  return {
    auditStatus := verdict.status
    passed := decide (verdict.status = .approved)
    reason := verdict.reason
    checks := verdict.checks
    dispatchId := integer ((dispatch evidence).get "dispatch_id")
    requiresManualReview := verdict.requiresManualReview
    auditRecordId := recordId }

end CountyFlow.Audit
