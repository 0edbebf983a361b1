import Mathlib.Data.Rat.Defs
import CountyFlow.Worker.Ledger

/-!
# The dispatcher

`DispatchService.execute` with the tables it reads and writes.  A call is a state machine whose steps
are the transactions and queries that other calls can come between: the query of the task and of an
existing dispatch, the query of the candidate's vehicle, the commit, and the query after a unique
constraint was met.  The vehicle row carries a version that every update compares and raises; a commit
that finds another version than the one loaded is stale, and nothing of it is kept.

Foreign keys to a task are its `task_id`, which is as unique as the primary key; the JSON payload of an
evidence row is left out, no function here reads it.
-/

namespace CountyFlow.Dispatch

open CountyFlow.Lib CountyFlow.Worker

/-! ### Tables -/

inductive VehicleOperationalStatus where
  | available
  | reserved
  | inTransit
  | dispatching
  | broken
  | waitingRescue
  | inRescue
  | maintenance
  | qaPending
  | outOfService
  deriving DecidableEq, Repr

/-- What the dispatcher and the vehicle operations read and write of a row of `fleet_vehicles`. -/
structure FleetVehicle where
  vehicleId : String
  status : VehicleOperationalStatus
  version : ℕ
  deriving DecidableEq, Repr

/-- A task, as far as the dispatcher and the reviewer are concerned. -/
structure TaskRow where
  taskId : String
  status : TaskStatus
  deriving DecidableEq, Repr

inductive Decision where
  | keepRoute
  | reroute
  | manualReview
  | noSafeRoute
  deriving DecidableEq, Repr

/-- A row of `dispatches`; `task_id` is unique. -/
structure DispatchRow where
  id : ℕ
  dispatchNo : String
  orderId : ℤ
  taskId : String
  originalRouteId : Option String
  targetRouteId : Option String
  originalVehicleId : Option String
  targetVehicleId : Option String
  targetDriverId : Option String
  transferNodeId : Option String
  decisionReason : Option String
  recommendedAction : Option String
  analysisMode : Option String
  issueSubtype : Option String
  fallbackUsed : Bool
  fallbackReason : Option String
  status : DispatchStatus
  version : ℕ
  deriving DecidableEq, Repr

inductive EvidenceType where
  | fleetAllocation
  | routeCalculation
  deriving DecidableEq, Repr

structure DispatchEvidence where
  dispatchId : ℕ
  evidenceType : EvidenceType
  algorithmVersion : String
  roadNetworkVersion : Option ℤ
  deriving DecidableEq, Repr

structure Store where
  tasks : Table TaskRow TaskRow.taskId
  vehicles : Table FleetVehicle FleetVehicle.vehicleId
  dispatches : Table DispatchRow DispatchRow.taskId
  evidence : List DispatchEvidence
  audits : List AuditRecord
  nextId : ℕ

/-! ### Requests and results -/

/-- `_text`, and the left side of Python's `or`: a text that is not empty. -/
def text : Option String → Option String
  | some s => if s = "" then none else some s
  | none => none

theorem text_eq_some {value : Option String} {x : String} :
    text value = some x ↔ value = some x ∧ x ≠ "" := by
  cases value with
  | none => exact ⟨fun h => (by cases h), fun h => (by cases h.1)⟩
  | some y =>
    show (if y = "" then none else some y) = some x ↔ some y = some x ∧ x ≠ ""
    rw [Option.some.injEq]
    by_cases hempty : y = ""
    · rw [if_pos hempty]
      constructor
      · intro h
        cases h
      · rintro ⟨rfl, hne⟩
        exact absurd hempty hne
    · rw [if_neg hempty, Option.some.injEq]
      constructor
      · rintro rfl
        exact ⟨rfl, hempty⟩
      · exact And.left

/-- What the dispatcher and the auditor read of a candidate vehicle in the state of the graph. -/
structure CandidateState where
  vehicleId : Option String
  driverId : Option String
  vehicleStatus : Option String
  driverStatus : Option String
  remainingCapacityKg : Option ℚ
  remainingLoadKg : Option ℚ
  grossWeightTons : ℚ
  cargoCapability : Option String
  eligible : Bool
  exclusionReasons : Option (List String)
  deriving DecidableEq, Repr

structure DispatchRequest where
  taskId : String
  orderId : ℤ
  originalRouteId : String
  targetRouteId : Option String
  decision : Decision
  decisionReason : String
  fallbackUsed : Bool
  fallbackReason : Option String
  requiresManualReview : Bool
  recommendedAction : Option String
  analysisMode : Option String
  issueSubtype : Option String
  originalVehicleId : Option String
  candidateVehicles : List CandidateState
  transferNodeId : Option String
  fleetAlgorithmVersion : Option String
  routeAlgorithmVersion : Option String
  roadNetworkVersion : Option ℤ
  deriving DecidableEq, Repr

structure DispatchResult where
  dispatchId : ℕ
  dispatchNo : String
  orderId : ℤ
  taskId : String
  status : DispatchStatus
  originalRouteId : String
  targetRouteId : Option String
  version : ℕ
  executed : Bool
  reason : String
  requiresManualReview : Bool
  originalVehicleId : Option String
  targetVehicleId : Option String
  targetDriverId : Option String
  deriving DecidableEq, Repr

inductive DispatchError where
  | valueError (message : String)
  | vehicleReservationConflict
  | integrityError
  | databaseError
  deriving DecidableEq, Repr

namespace DispatchRequest

def rankedEligibleCandidates (r : DispatchRequest) : List CandidateState :=
  r.candidateVehicles.filter fun candidate => candidate.eligible

/-- The candidates `execute` tries: the first two, or none at all. -/
def attempts (r : DispatchRequest) : List (Option CandidateState) :=
  match r.rankedEligibleCandidates with
  | [] => [none]
  | candidates => (candidates.take 2).map some

def manualReview (r : DispatchRequest) : Bool :=
  r.requiresManualReview || decide (r.decision = .manualReview ∨ r.decision = .noSafeRoute)

def status (r : DispatchRequest) : DispatchStatus :=
  if r.manualReview then .reviewRequired
  else if r.decision = .reroute then .rerouted
  else .keptRoute

/-- The new row, with the vehicle and the driver of the candidate. -/
def row (r : DispatchRequest) (candidate : Option CandidateState) (id : ℕ) (dispatchNo : String) :
    DispatchRow where
  id := id
  dispatchNo := dispatchNo
  orderId := r.orderId
  taskId := r.taskId
  originalRouteId := some r.originalRouteId
  targetRouteId := if r.manualReview then r.targetRouteId
    else some ((text r.targetRouteId).getD r.originalRouteId)
  originalVehicleId := r.originalVehicleId
  targetVehicleId := candidate.bind fun c => text c.vehicleId
  targetDriverId := candidate.bind fun c => text c.driverId
  transferNodeId := r.transferNodeId
  decisionReason := some r.decisionReason
  recommendedAction := text r.recommendedAction <|>
    if r.manualReview then some "保持任务暂停并等待人工复核。" else none
  analysisMode := text r.analysisMode <|>
    if r.manualReview then some "EIGHT_AGENT_RULE_ASSISTED" else none
  issueSubtype := text r.issueSubtype <|> if r.manualReview then some "GENERAL" else none
  fallbackUsed := r.fallbackUsed
  fallbackReason := r.fallbackReason
  status := r.status
  version := 1

def evidence (r : DispatchRequest) (id : ℕ) : List DispatchEvidence :=
  [⟨id, .fleetAllocation, (text r.fleetAlgorithmVersion).getD "FLEET_SCORE_V1", none⟩,
    ⟨id, .routeCalculation, (text r.routeAlgorithmVersion).getD "DIJKSTRA_V1", r.roadNetworkVersion⟩]

def created (r : DispatchRequest) (candidate : Option CandidateState) (id : ℕ)
    (dispatchNo : String) : DispatchResult where
  dispatchId := id
  dispatchNo := dispatchNo
  orderId := r.orderId
  taskId := r.taskId
  status := r.status
  originalRouteId := r.originalRouteId
  targetRouteId := (r.row candidate id dispatchNo).targetRouteId
  version := 1
  executed := !r.manualReview
  reason := r.decisionReason
  requiresManualReview := r.manualReview
  originalVehicleId := r.originalVehicleId
  targetVehicleId := candidate.bind fun c => text c.vehicleId
  targetDriverId := candidate.bind fun c => text c.driverId

/-- `_result`: the result of a call that has found a dispatch. -/
def result (r : DispatchRequest) (dispatch : DispatchRow) : DispatchResult where
  dispatchId := dispatch.id
  dispatchNo := dispatch.dispatchNo
  orderId := r.orderId
  taskId := r.taskId
  status := dispatch.status
  originalRouteId := (text dispatch.originalRouteId).getD r.originalRouteId
  targetRouteId := dispatch.targetRouteId
  version := dispatch.version
  executed := !decide (dispatch.status = .reviewRequired)
  reason := (text dispatch.decisionReason).getD r.decisionReason
  requiresManualReview := decide (dispatch.status = .reviewRequired)
  originalVehicleId := dispatch.originalVehicleId
  targetVehicleId := dispatch.targetVehicleId
  targetDriverId := dispatch.targetDriverId

end DispatchRequest

/-! ### A call -/

/-- A point of `execute` between two transactions; `rest` are the candidates still to try. -/
inductive CallState where
  | idle
  | loading (r : DispatchRequest) (candidate : Option CandidateState)
      (rest : List (Option CandidateState))
  | reserving (r : DispatchRequest) (candidate : CandidateState) (rest : List (Option CandidateState))
  | committing (r : DispatchRequest) (reservation : Option (CandidateState × FleetVehicle))
      (rest : List (Option CandidateState))
  | rereading (r : DispatchRequest)
  | created (r : DispatchRequest) (result : DispatchResult)
  | replayed (r : DispatchRequest) (result : DispatchResult)
  | raised (r : DispatchRequest) (error : DispatchError)
  deriving DecidableEq, Repr

/-- What the database does with a commit: let it through to its own checks, report another constraint,
or fail. -/
inductive CommitOutcome where
  | checked
  | integrity
  | failed
  deriving DecidableEq, Repr

/-- What the world contributes to a step: the fate of a commit, and the new `dispatch_no`. -/
structure CallOutcome where
  commit : CommitOutcome
  dispatchNo : String
  deriving DecidableEq, Repr

namespace CallState

/-- The next round of the loop. -/
def attempt (r : DispatchRequest) : List (Option CandidateState) → CallState
  | [] => .raised r .vehicleReservationConflict
  | candidate :: rest => .loading r candidate rest

/-- `execute` up to its first query. -/
def start (r : DispatchRequest) : CallState := attempt r r.attempts

def commit (store : Store) (r : DispatchRequest)
    (vehicles : Table FleetVehicle FleetVehicle.vehicleId)
    (dispatches : Table DispatchRow DispatchRow.taskId) : Store :=
  { store with
    vehicles := vehicles
    dispatches := dispatches
    evidence := store.evidence ++ r.evidence store.nextId
    nextId := store.nextId + 1 }

/-- The flush: the update of the vehicle compares the version it was loaded with, then the insertion
of the dispatch meets the unique constraint of its task. -/
def flush (store : Store) (r : DispatchRequest) (reservation : Option (CandidateState × FleetVehicle))
    (rest : List (Option CandidateState)) (dispatchNo : String) : CallState × Store :=
  let candidate := reservation.map Prod.fst
  match reservation with
  | none =>
    match store.dispatches.add (r.row none store.nextId dispatchNo) with
    | none => (.rereading r, store)
    | some dispatches => (.created r (r.created candidate store.nextId dispatchNo),
        commit store r store.vehicles dispatches)
  | some (_, loaded) =>
    match store.vehicles.find loaded.vehicleId with
    | none => (attempt r rest, store)
    | some vehicle =>
      if vehicle.version ≠ loaded.version then (attempt r rest, store)
      else match store.dispatches.add (r.row candidate store.nextId dispatchNo) with
        | none => (.rereading r, store)
        | some dispatches => (.created r (r.created candidate store.nextId dispatchNo),
            commit store r (store.vehicles.replace
              { vehicle with status := .reserved, version := vehicle.version + 1 }) dispatches)

/-- One step of a call; `none` when it is over. -/
def step (o : CallOutcome) (store : Store) : CallState → Option (CallState × Store)
  | .idle | .created _ _ | .replayed _ _ | .raised _ _ => none
  | .loading r candidate rest =>
    match store.tasks.find r.taskId with
    | none => some (.raised r (.valueError "Dispatch task does not exist"), store)
    | some _ =>
      match store.dispatches.find r.taskId, candidate with
      | some dispatch, _ => some (.replayed r (r.result dispatch), store)
      | none, none => some (.committing r none rest, store)
      | none, some c => some (.reserving r c rest, store)
  | .reserving r candidate rest =>
    match (text candidate.vehicleId).bind store.vehicles.find with
    | none => some (attempt r rest, store)
    | some vehicle =>
      if vehicle.status ≠ .available ∨ text candidate.driverId = none then
        some (attempt r rest, store)
      else some (.committing r (some (candidate, vehicle)) rest, store)
  | .committing r reservation rest =>
    match o.commit with
    | .checked => some (flush store r reservation rest o.dispatchNo)
    | .integrity => some (.rereading r, store)
    | .failed => some (.raised r .databaseError, store)
  | .rereading r =>
    match store.tasks.find r.taskId, store.dispatches.find r.taskId with
    | some _, some dispatch => some (.replayed r (r.result dispatch), store)
    | _, _ => some (.raised r .integrityError, store)

end CallState

end CountyFlow.Dispatch
