import CountyFlow.Dispatch.Execution
import CountyFlow.Graph.Audit
import CountyFlow.Graph.Capacity
import CountyFlow.Graph.Intake
import CountyFlow.Graph.Routing

/-!
# A run of the graph

The eight nodes in `NODE_ORDER`, each with the service it is built with.  What a service answers is
part of the `Services`, and so is what the dispatcher meets.
-/

namespace CountyFlow.Graph

open CountyFlow.Lib CountyFlow.Road CountyFlow.Dispatch

/-! ### Services -/

/-- `EnvironmentResult`, as far as it is read. -/
structure EnvironmentResult where
  weather : String
  roadCondition : String
  riskLevel : String
  fallbackUsed : Bool
  fallbackReason : Option String
  deriving DecidableEq, Repr

/-- The dependencies of the graph.  `snapshots` is what the snapshot service captures; a memory service
answers `none` when it fails; `dispatch` is what the dispatcher meets, `audit` says whether the record
of the audit can be written. -/
structure Services where
  sandtable : Option Sandtable := none
  snapshots : Option RoadNetworkSnapshot := none
  entityMemory : Option (Option (List MemoryRecall)) := none
  graphMemory : Option (Option Bool) := none
  environment : Option EnvironmentResult := none
  capacity : Option CapacityService := none
  fleet : Option FleetAllocationService := none
  routing : Option RoutingService := none
  dispatch : Option (List (CallOutcome × Store)) := none
  audit : Option Bool := none
  fuel : ℕ

/-! ### The other nodes -/

def entityMemoryNode (service : Option (Option (List MemoryRecall))) (s : GraphState) : GraphState :=
  match service with
  | none => { s with memoryResults := [] }
  | some none =>
    { s with
      memoryResults := []
      errorCode := some .memoryRecallError
      errorMessage := some "Entity memory recall is temporarily unavailable." }
  | some (some recalls) => { s with memoryResults := recalls }

def graphMemoryNode (service : Option (Option Bool)) (s : GraphState) : GraphState :=
  match service with
  | none => { s with graphMemoryUsed := false, graphMemoryError := none }
  | some none =>
    { s with
      graphMemoryUsed := false
      graphMemoryError := some "Graph memory recall is temporarily unavailable." }
  | some (some used) => { s with graphMemoryUsed := used, graphMemoryError := none }

def environmentNode (service : Option EnvironmentResult) (s : GraphState) : GraphState :=
  match service with
  | none => s
  | some result =>
    { s with
      weather := some result.weather
      roadCondition := some result.roadCondition
      environmentRisk := some result.riskLevel
      fallbackUsed := some result.fallbackUsed
      fallbackReason := result.fallbackReason }

namespace GraphState

/-- The arguments `dispatch_node` calls `execute` with. -/
def dispatchRequest (s : GraphState) : DispatchRequest where
  taskId := s.taskId
  orderId := s.orderId
  originalRouteId := s.routeId
  targetRouteId := s.recommendedRoute
  decision := s.decision.getD .manualReview
  decisionReason := s.decisionReason.getD "Manual review required."
  fallbackUsed := s.fallbackUsed.getD false
  fallbackReason := s.fallbackReason
  requiresManualReview := s.requiresManualReview.getD false
  recommendedAction := s.recommendedAction
  analysisMode := s.analysisMode
  issueSubtype := s.issueSubtype
  originalVehicleId := if s.originalVehicleWeightTons.isSome then s.vehicleId else none
  candidateVehicles := s.candidateVehicles
  transferNodeId := s.incidentNodeId
  fleetAlgorithmVersion := some "FLEET_SCORE_V1"
  routeAlgorithmVersion := some (s.routingAlgorithm.getD "DIJKSTRA_V1")
  roadNetworkVersion := s.roadNetworkVersion

def dispatched (s : GraphState) (result : DispatchResult) : GraphState :=
  { s with
    dispatchResult := some {
      dispatchId := result.dispatchId
      dispatchNo := result.dispatchNo
      status := result.status
      targetRouteId := result.targetRouteId
      originalVehicleId := result.originalVehicleId
      targetVehicleId := result.targetVehicleId
      targetDriverId := result.targetDriverId
      version := result.version
      executed := result.executed }
    requiresManualReview := some result.requiresManualReview
    selectedVehicleId := result.targetVehicleId <|> s.selectedVehicleId
    selectedDriverId := result.targetDriverId <|> s.selectedDriverId }

/-- The patch when no vehicle could be reserved. -/
def notReserved (s : GraphState) : GraphState :=
  { s with
    requiresManualReview := some true
    errorCode := some .vehicleReservationConflict
    errorMessage := some "Replacement vehicle reservation conflicted with another dispatch." }

end GraphState

/-- `dispatch_node`; the dispatcher itself never raises `OptimisticLockConflict`. -/
def dispatchNode (service : Option (List (CallOutcome × Store))) (s : GraphState) :
    Except GraphError GraphState :=
  match service with
  | none => .ok s
  | some world =>
    match s.dispatchRequest.execute world with
    | some (.created _ result) | some (.replayed _ result) => .ok (s.dispatched result)
    | some (.raised _ .vehicleReservationConflict) => .ok s.notReserved
    | some (.raised _ error) => .error (.dispatch error)
    | _ => .error .unfinished

/-! ### The graph -/

inductive Node where
  | intake | entityMemory | graphMemory | environment | capacity | routing | dispatch | audit
  deriving DecidableEq, Repr

def nodeOrder : List Node :=
  [.intake, .entityMemory, .graphMemory, .environment, .capacity, .routing, .dispatch, .audit]

def Services.node (v : Services) (s : GraphState) : Node → Except GraphError GraphState
  | .intake => .ok (intakeNode v.sandtable v.snapshots s)
  | .entityMemory => .ok (entityMemoryNode v.entityMemory s)
  | .graphMemory => .ok (graphMemoryNode v.graphMemory s)
  | .environment => .ok (environmentNode v.environment s)
  | .capacity => capacityNode v.capacity v.fleet v.snapshots.isSome v.fuel s
  | .routing => routingNode v.routing v.snapshots.isSome v.fuel s
  | .dispatch => dispatchNode v.dispatch s
  | .audit => .ok (v.audit.elim s fun persists => auditNode persists s)

def Services.run (v : Services) (s : GraphState) : Except GraphError GraphState :=
  nodeOrder.foldlM v.node s

def Services.received (v : Services) (s : GraphState) : GraphState :=
  intakeNode v.sandtable v.snapshots s

def Services.recalled (v : Services) (s : GraphState) : GraphState :=
  environmentNode v.environment
    (graphMemoryNode v.graphMemory (entityMemoryNode v.entityMemory (v.received s)))

def Services.collected (v : Services) (s : GraphState) : Except GraphError GraphState :=
  capacityNode v.capacity v.fleet v.snapshots.isSome v.fuel (v.recalled s)

theorem run_ok {v : Services} {s s' : GraphState} :
    v.run s = .ok s' ↔ ∃ s₅ s₆ s₇, v.collected s = .ok s₅ ∧
      routingNode v.routing v.snapshots.isSome v.fuel s₅ = .ok s₆ ∧
      dispatchNode v.dispatch s₆ = .ok s₇ ∧
      s' = v.audit.elim s₇ fun persists => auditNode persists s₇ := by
  have hrun : v.run s = (do
      let s₅ ← v.collected s
      let s₆ ← routingNode v.routing v.snapshots.isSome v.fuel s₅
      let s₇ ← dispatchNode v.dispatch s₆
      .ok (v.audit.elim s₇ fun persists => auditNode persists s₇)) := rfl
  rw [hrun]
  constructor
  · intro h
    obtain ⟨s₅, h₅, h⟩ := bind_eq_ok.mp h
    obtain ⟨s₆, h₆, h⟩ := bind_eq_ok.mp h
    obtain ⟨s₇, h₇, h⟩ := bind_eq_ok.mp h
    exact ⟨s₅, s₆, s₇, h₅, h₆, h₇, (Except.ok.inj h).symm⟩
  · rintro ⟨s₅, s₆, s₇, h₅, h₆, h₇, rfl⟩
    exact bind_eq_ok.mpr ⟨s₅, h₅, bind_eq_ok.mpr ⟨s₆, h₆, bind_eq_ok.mpr ⟨s₇, h₇, rfl⟩⟩⟩

end CountyFlow.Graph
