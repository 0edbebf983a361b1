import CountyFlow.Graph.Recommendation

/-!
# The audit

`AuditService._evaluate` reads the state again and derives by itself what the planner and the
dispatcher have agreed on.  The evidence is the state, with the defaults of `audit_node`.
-/

namespace CountyFlow.Graph

open CountyFlow.Road CountyFlow.Dispatch

/-! ### Roads -/

/-- An edge by its id; `_road_edges_by_id` keeps the last one of an id, and none without a text. -/
def roadEdge (edges : List RoadEdgeSnapshot) (edgeId : String) : Option RoadEdgeSnapshot :=
  if edgeId = "" then none else edges.reverse.find? fun edge => edge.edgeId = edgeId

/-- An edge leads from a node of the path to the next one. -/
def connects (nodeIds : List String) (edges : List RoadEdgeSnapshot) (edgeId : String)
    (index : ℕ) : Bool :=
  match roadEdge edges edgeId with
  | none => false
  | some edge =>
    let start := text (some edge.fromNodeId)
    let stop := text (some edge.toNodeId)
    let ends := (nodeIds[index]?, nodeIds[index + 1]?)
    decide ((start, stop) = ends ∨ (edge.bidirectional = true ∧ (stop, start) = ends))

def pathConnects (nodeIds edgeIds : List String) (edges : List RoadEdgeSnapshot) : Bool :=
  !edgeIds.isEmpty && decide (nodeIds.length = edgeIds.length + 1) &&
    edgeIds.zipIdx.all fun entry => connects nodeIds edges entry.1 entry.2

def EdgeAllowed (edge : RoadEdgeSnapshot) : Prop :=
  edge.status = .open ∨ edge.status = .congested ∨ edge.status = .restricted

instance (edge : RoadEdgeSnapshot) : Decidable (EdgeAllowed edge) :=
  inferInstanceAs (Decidable (_ ∨ _ ∨ _))

def pathEdgesAreOpen (edgeIds : List String) (edges : List RoadEdgeSnapshot) : Bool :=
  !edgeIds.isEmpty && edgeIds.all fun edgeId => (roadEdge edges edgeId).any fun edge =>
    decide (EdgeAllowed edge)

/-! ### The evidence -/

namespace GraphState

/-- `dispatch.get("executed") is True`. -/
def executed (s : GraphState) : Bool := s.dispatchResult.any DispatchResultState.executed

/-- `_text` of a field of the dispatch result. -/
def dispatchText (s : GraphState) (field : DispatchResultState → Option String) : Option String :=
  text (s.dispatchResult.bind field)

def targetRouteId (s : GraphState) : Option String := s.dispatchText DispatchResultState.targetRouteId

/-- The dispatch has to be reviewed in any case. -/
def underReview (s : GraphState) : Bool :=
  decide (s.decision = some .manualReview ∨ s.requiresManualReview = some true) ||
    s.errorCode.any ErrorCode.conflict

def issue (s : GraphState) : Option String :=
  text s.identifiedIssue <|> text (some s.anomalyType)

/-- `_candidate`, for the vehicle of the dispatch. -/
def auditedCandidate (s : GraphState) : Option CandidateState :=
  (s.dispatchText DispatchResultState.targetVehicleId).bind fun id =>
    s.candidateVehicles.find? fun candidate => text candidate.vehicleId = some id

def vehicleAssignment (s : GraphState) : Bool :=
  let original := s.dispatchText DispatchResultState.originalVehicleId <|> text s.vehicleId
  let target := s.dispatchText DispatchResultState.targetVehicleId
  let driver := s.dispatchText DispatchResultState.targetDriverId
  match s.auditedCandidate with
  | none => false
  | some candidate => decide (
      original ≠ none ∧ target ≠ none ∧ target ≠ original ∧
      text candidate.vehicleId = text s.selectedVehicleId ∧ text s.selectedVehicleId = target ∧
      text candidate.driverId = text s.selectedDriverId ∧ text s.selectedDriverId = driver ∧
      candidate.vehicleStatus = some "AVAILABLE" ∧
      (candidate.driverStatus = some "ON_DUTY" ∨ candidate.driverStatus = some "AVAILABLE") ∧
      candidate.eligible = true ∧ candidate.exclusionReasons = some [])

def capacityConstraint (s : GraphState) : Bool :=
  match s.cargoWeightKg, s.auditedCandidate with
  | some weight, some candidate =>
    match candidate.remainingCapacityKg <|> candidate.remainingLoadKg with
    | none => false
    | some remaining => decide (weight ≤ remaining ∧
        (text s.cargoType ≠ some "COLD_CHAIN" ∨
          text candidate.cargoCapability = some "COLD_CHAIN"))
  | _, _ => false

/-- The edges of the recommended path, none when there is no path. -/
def pathEdgeIds (s : GraphState) : List String := s.recommendedPath.elim [] PathResult.edgeIds

/-- The nodes of the recommended path, none when there is no path. -/
def pathNodeIds (s : GraphState) : List String := s.recommendedPath.elim [] PathResult.nodeIds

def routeConnectivity (s : GraphState) : Bool :=
  pathConnects s.pathNodeIds s.pathEdgeIds s.roadNetworkEdges

def blockedEdgeExclusion (s : GraphState) : Bool :=
  decide (∀ edgeId ∈ s.pathEdgeIds, edgeId ∉ s.blockedEdgeIds) &&
    pathEdgesAreOpen s.pathEdgeIds s.roadNetworkEdges

def memoryConsistency (s : GraphState) : Bool :=
  match text s.adoptedMemoryId with
  | none => false
  | some memoryId => s.memoryResults.any fun memory => memory.memoryId = memoryId

def initialChecks (s : GraphState) : AuditChecks :=
  ⟨true, true, true, s.executed, true, true, true, true⟩

/-- A check: whether it is made, whether it passes, what it notes, and why it fails. -/
structure Check where
  applies : Bool
  passes : Bool
  record : Bool → AuditChecks → AuditChecks
  reason : String

/-- The checks of `_evaluate`, in their order.  The two checks of a vehicle, and the two of a road,
are made together before the first one of them can end the audit. -/
def checks (s : GraphState) : List Check :=
  let breakdown := decide (s.issue = some "VEHICLE_BREAKDOWN")
  let road := decide (s.issue = some "ROAD_BLOCKED" ∨ s.blockedEdgeIds ≠ [])
  [ { applies := breakdown
      passes := s.vehicleAssignment
      record := fun passes checks =>
        { checks with vehicleAssignment := passes, capacityConstraint := s.capacityConstraint }
      reason := "Replacement vehicle assignment is inconsistent." },
    { applies := breakdown
      passes := s.capacityConstraint
      record := fun _ checks => checks
      reason := "Replacement vehicle capacity or cargo capability is invalid." },
    { applies := road
      passes := s.routeConnectivity
      record := fun passes checks =>
        { checks with routeConnectivity := passes, blockedEdgeExclusion := s.blockedEdgeExclusion }
      reason := "Recommended path is not connected in the road network." },
    { applies := road
      passes := s.blockedEdgeExclusion
      record := fun _ checks => checks
      reason := "Recommended path includes a blocked edge." },
    { applies := decide (s.decision = some .noSafeRoute) && s.executed
      passes := false
      record := fun passes checks => { checks with routeConsistency := passes }
      reason := "No-safe-route decision cannot execute a dispatch." },
    { applies := decide (s.decision = some .reroute)
      passes := decide (text s.recommendedRoute ≠ none ∧ s.executed = true ∧
        s.targetRouteId = text s.recommendedRoute)
      record := fun passes checks => { checks with routeConsistency := passes }
      reason := "Recommended route and dispatch target do not match." },
    { applies := decide (s.decision = some .keepRoute)
      passes := decide (s.executed = true ∧ s.targetRouteId = text (some s.routeId))
      record := fun passes checks => { checks with routeConsistency := passes }
      reason := "Keep-route dispatch target does not match the original route." },
    { applies := decide (s.memoryAdopted = some true)
      passes := s.memoryConsistency
      record := fun passes checks => { checks with memoryConsistency := passes }
      reason := "Adopted memory is absent from recalled memory results." },
    { applies := decide (s.fallbackUsed = some true)
      passes := (text s.fallbackReason).isSome
      record := fun passes checks => { checks with fallbackConsistency := passes }
      reason := "Fallback dispatch requires a fallback reason." } ]

/-- What `_evaluate` answers. -/
structure Verdict where
  status : Worker.AuditResult
  reason : String
  requiresManualReview : Bool
  checks : AuditChecks

/-- The checks one after another, up to the first one that fails. -/
def verdict (done : AuditChecks) : List Check → Verdict
  | [] => ⟨.approved, "Audit checks passed.", false, done⟩
  | check :: rest =>
    if check.applies then
      let done := check.record check.passes done
      if check.passes then verdict done rest else ⟨.rejected, check.reason, true, done⟩
    else verdict done rest

def evaluate (s : GraphState) : Verdict :=
  if s.underReview then
    ⟨.reviewRequired, "Dispatch requires manual review.", true, s.initialChecks⟩
  else verdict s.initialChecks s.checks

end GraphState

/-! ### The node -/

/-- The record of an audit is written, or it cannot be. -/
def GraphState.recordFails (s : GraphState) (persists : Bool) : Bool :=
  (text (some s.taskId)).isSome && s.dispatchResult.isSome && !persists

/-- `audit_node`; `persists` says whether the record can be written. -/
def auditNode (persists : Bool) (s : GraphState) : GraphState :=
  if s.recordFails persists then
    { s with
      requiresManualReview := some true
      errorCode := some .auditPersistenceError
      errorMessage := some "Audit result could not be persisted."
      auditReport := none }
  else
    { s with
      auditReport := some {
        auditStatus := s.evaluate.status
        passed := decide (s.evaluate.status = .approved)
        reason := s.evaluate.reason
        checks := s.evaluate.checks
        dispatchId := s.dispatchResult.map DispatchResultState.dispatchId
        requiresManualReview := s.evaluate.requiresManualReview }
      requiresManualReview := some s.evaluate.requiresManualReview }

end CountyFlow.Graph
