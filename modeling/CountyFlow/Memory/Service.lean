import CountyFlow.Memory.Repository

/-!
# The steps of `mutate` and `resume_mutation`

A call moves from one `CallState` to the next by one transaction of the repository, one operation
of a projection store, or one thing it waits for.  What the outside answers is an `Answer`: the
step goes through at some time of the clock, an operation of a projection store fails, or the call
is cut off.  An operation that fails or is cut off may have taken effect.

The lock is not here: `acquiring`, `waiting` and `releasing` wait for the system's step.
-/

namespace CountyFlow.Memory

/-- What a `SharedMemoryMutationService` is configured with; `digest` is `build_fact_key`. -/
structure MutationService where
  policySettings : MemoryPolicySettings
  digest : FactIdentity → String

def MutationService.factKey (v : MutationService) (c : MutationCommand) : String :=
  v.digest c.factIdentity

/-- `MemoryMutationResult`. -/
structure MutationResult where
  mutationId : ℕ
  factKey : String
  decision : MutationDecision
  status : MutationStatus
  beforeVersion : Option ℕ
  afterVersion : Option ℕ
  vectorStatus : ProjectionStatus
  graphStatus : ProjectionStatus
  projectionIncomplete : Bool
  errorCode : Option String
  errorSummary : Option String
  deriving DecidableEq, Repr

/-- `_result`: a row without a decision has none. -/
def Mutation.result (row : Mutation) : Except MemoryError MutationResult :=
  match row.decision with
  | none => .error .valueError
  | some decision => .ok
      { mutationId := row.mutationId
        factKey := row.factKey
        decision := decision
        status := row.status
        beforeVersion := row.beforeVersion
        afterVersion := row.afterVersion
        vectorStatus := row.vectorStatus
        graphStatus := row.graphStatus
        projectionIncomplete := row.status = .partly ∨ row.status = .finalizing
        errorCode := row.errorCode
        errorSummary := row.errorSummary }

/-- What a call that projects and finalizes works with. -/
structure Work where
  mutationId : ℕ
  factKey : String
  command : MutationCommand
  beforeVersion : Option ℕ
  afterVersion : ℕ
  resumed : Bool
  deriving DecidableEq

/-- Where such a call is.  `settling` and `recording` write the status of a projection into the
row; `rest` is what is still to be activated. -/
inductive Phase where
  | applying
  | building (target : MemoryTarget)
  | probing (p : Projection)
  | staging (p : Projection)
  | settling (p : Projection) (status : ProjectionStatus)
  | finalizing
  | checking (p : Projection) (rest : List Projection)
  | activating (p : Projection) (rest : List Projection)
  | retiring (p : Projection) (rest : List Projection)
  | recording (p : Projection) (rest : List Projection)
  | failing (errorCode : String)
  | closing
  deriving DecidableEq

inductive CallState where
  | acquiring (c : MutationCommand) (factKey : String)
  | beginning (c : MutationCommand) (factKey : String)
  | replaying (mutationId : ℕ) (factKey : String)
  | requesting (mutationId : ℕ) (c : MutationCommand) (factKey : String)
  | loading (mutationId : ℕ) (c : MutationCommand) (factKey : String)
  | deciding (mutationId : ℕ) (c : MutationCommand) (factKey : String) (d : MemoryDecision)
      (current : Option FactSnapshot)
  | evidencing (mutationId : ℕ) (c : MutationCommand) (factKey : String) (d : MemoryDecision)
      (current : Option FactSnapshot)
  | reviewing (mutationId : ℕ) (c : MutationCommand) (factKey : String)
  | concluding (mutationId : ℕ) (factKey : String)
  | reading (mutationId : ℕ)
  | waiting (stored : Mutation)
  | resuming (stored : Mutation)
  | working (w : Work) (specs : List Projection) (error : Option String) (phase : Phase)
  | reporting (factKey : String) (result : MutationResult)
  | releasing (factKey : String) (ending : Except MemoryError MutationResult)
  | done (ending : Except MemoryError MutationResult)

/-- What a step meets outside. -/
inductive Answer where
  | goes (now : ℤ)
  /-- A projection store raises or times out; `errorCode` is what the service makes of it. -/
  | fails (effect : Bool) (errorCode : String)
  /-- The call is cut off. -/
  | raises (effect : Bool)
  deriving DecidableEq, Repr

namespace CallState

/-- The call raises with the lock held, or ends with a result. -/
def finish (factKey : String) (ending : Except MemoryError MutationResult) : CallState :=
  match ending with
  | .ok result => .reporting factKey result
  | .error e => .releasing factKey (.error e)

def staged (w : Work) (specs : List Projection) (error : Option String) : CallState :=
  match error with
  | some code => .working w specs error (.failing code)
  | none => .working w specs error .finalizing

def nextTarget (w : Work) (specs : List Projection) (error : Option String) :
    MemoryTarget → CallState
  | .vector =>
    if .graph ∈ w.command.targets then .working w specs error (.building .graph)
    else staged w specs error
  | .graph => staged w specs error

def firstTarget (w : Work) : CallState :=
  if .vector ∈ w.command.targets then .working w [] none (.building .vector)
  else nextTarget w [] none .vector

/-- The next projection to activate; a resumed call looks first. -/
def nextActivation (w : Work) (specs : List Projection) (error : Option String) :
    List Projection → CallState
  | p :: rest =>
    .working w specs error (if w.resumed then .checking p rest else .activating p rest)
  | [] =>
    match error with
    | some code => .working w specs error (.failing code)
    | none => .working w specs error .closing

end CallState

/-- What the operation a call is waiting for does when it takes effect. -/
def Phase.effect (s : Store) : Phase → Store
  | .staging p => s.stage p
  | .activating p _ => s.activate p
  | .retiring p _ => s.retirePrevious p
  | _ => s

/-- `_resume_locked`, as far as the first write. -/
def MutationService.resume (v : MutationService) (stored : Mutation) : CallState :=
  if v.factKey stored.command ≠ stored.factKey then
    .releasing stored.factKey
      (.error (.validation "Stored memory mutation identity is invalid"))
  else
    match stored.decision, stored.afterVersion with
    | some _, some afterVersion =>
      .working ⟨stored.mutationId, stored.factKey, stored.command, stored.beforeVersion,
        afterVersion, true⟩ [] none .applying
    | _, _ => .releasing stored.factKey
        (.error (.validation "Stored memory mutation decision is incomplete"))

open CallState

/-- A transaction of the repository: the store after it, and where the call goes on. -/
def committed {β : Type*} (factKey : String) (next : β → CallState) (s : Store) :
    Except MemoryError (Store × β) → Store × CallState
  | .ok (s', b) => (s', next b)
  | .error e => (s, .releasing factKey (.error e))

/-- A step that goes through, of a call that projects and finalizes. -/
def Phase.step (s : Store) (w : Work) (specs : List Projection) (error : Option String) (now : ℤ) :
    Phase → Store × CallState
  | .applying => committed w.factKey (fun _ => firstTarget w) s (s.markApplying w.mutationId)
  | .building target =>
    match build target w.command w.mutationId w.factKey w.afterVersion with
    | none => (s, .releasing w.factKey (.error .build))
    | some p =>
      (s, .working w (specs ++ [p]) error (if w.resumed then .probing p else .staging p))
  | .probing p =>
    match s.probe p.slot.target w.mutationId w.afterVersion with
    | some .staged => (s, .working w specs error (.settling p .staged))
    | some .active => (s, .working w specs error (.settling p .active))
    | _ => (s, .working w specs error (.staging p))
  | .staging p => (s.stage p, .working w specs error (.settling p .staged))
  | .settling p status =>
    committed w.factKey (fun _ => nextTarget w specs error p.slot.target) s
      (s.updateProjectionStatus w.mutationId p.slot.target status)
  | .finalizing =>
    match s.finalizeCanonical w.mutationId w.command w.factKey w.beforeVersion w.afterVersion
        now with
    | .ok s' => (s', nextActivation w specs error specs)
    | .error e => (s, .releasing w.factKey (.error e))
  | .checking p rest =>
    if s.probe p.slot.target w.mutationId w.afterVersion = some .active then
      (s, nextActivation w specs error rest)
    else (s, .working w specs error (.activating p rest))
  | .activating p rest => (s.activate p, .working w specs error (.retiring p rest))
  | .retiring p rest => (s.retirePrevious p, .working w specs error (.recording p rest))
  | .recording p rest =>
    committed w.factKey (fun _ => nextActivation w specs error rest) s
      (s.updateProjectionStatus w.mutationId p.slot.target .active)
  | .failing errorCode =>
    committed w.factKey (fun row : Mutation => finish w.factKey row.result) s
      (s.markPartial w.mutationId errorCode "A required memory projection is incomplete")
  | .closing =>
    committed w.factKey (fun row : Mutation => finish w.factKey row.result) s
      (s.markApplied w.mutationId)

/-- The statuses `_publish_terminal` has an event for. -/
def MutationStatus.published : MutationStatus → Bool
  | .applied | .rejected | .conflict | .partly => true
  | _ => false

def CallState.step (v : MutationService) (s : Store) (now : ℤ) : CallState → Option (Store × CallState)
  | .beginning c factKey =>
    some <| match s.beginOrReplay c factKey with
      | .ok (s', mutationId, true) => (s', .replaying mutationId factKey)
      | .ok (s', mutationId, false) => (s', .requesting mutationId c factKey)
      | .error e => (s, .releasing factKey (.error e))
  | .replaying mutationId factKey =>
    some (s, .releasing factKey ((s.getMutation mutationId).bind Mutation.result))
  | .requesting mutationId c factKey => some (s, .loading mutationId c factKey)
  | .loading mutationId c factKey =>
    some <| match evaluateMutation (s.loadFact factKey) factKey c v.policySettings now with
      | .ok d => (s, .deciding mutationId c factKey d (s.loadFact factKey))
      | .error e => (s, .releasing factKey (.error e))
  | .deciding mutationId c factKey d current =>
    some <| committed factKey (fun _ => .evidencing mutationId c factKey d current) s
      (s.recordDecision mutationId d)
  | .evidencing mutationId c factKey d current =>
    some (s.appendEvidence mutationId c,
      match d.requiresProjection, d.afterVersion with
      | true, some afterVersion =>
        .working ⟨mutationId, factKey, c, d.beforeVersion, afterVersion, false⟩ [] none .applying
      | true, none => .releasing factKey (.error .valueError)
      | false, _ =>
        if d.decision = .conflictReview ∧ current = none then .reviewing mutationId c factKey
        else .concluding mutationId factKey)
  | .reviewing mutationId c factKey =>
    some (s.createPendingReview mutationId c factKey now, .concluding mutationId factKey)
  | .concluding mutationId factKey =>
    some (s, finish factKey ((s.getMutation mutationId).bind Mutation.result))
  | .reading mutationId =>
    some <| match s.getMutation mutationId with
      | .ok stored =>
        if stored.status.finished then (s, .done stored.result) else (s, .waiting stored)
      | .error e => (s, .done (.error e))
  | .resuming stored => some (s, v.resume stored)
  | .working w specs error phase => some (phase.step s w specs error now)
  | .reporting factKey result =>
    some (s, .releasing factKey (if result.status.published then .ok result else .error .keyError))
  | .acquiring .. | .waiting _ | .releasing .. | .done _ => none

/-- An operation of a projection store fails.  Staging leaves a mark in the row; the first error is
the one reported. -/
def CallState.fail (s : Store) (effect : Bool) (errorCode : String) :
    CallState → Option (Store × CallState)
  | .working w specs error phase =>
    let s' := if effect then phase.effect s else s
    let error' := error <|> some errorCode
    match phase with
    | .staging p => some (s', .working w specs error' (.settling p .failed))
    | .activating _ rest | .retiring _ rest => some (s', nextActivation w specs error' rest)
    | _ => none
  | _ => none

def CallState.holds : CallState → Option String
  | .beginning _ factKey | .replaying _ factKey | .requesting _ _ factKey | .loading _ _ factKey
  | .deciding _ _ factKey _ _ | .evidencing _ _ factKey _ _ | .reviewing _ _ factKey
  | .concluding _ factKey | .reporting factKey _ | .releasing factKey _ => some factKey
  | .resuming stored => some stored.factKey
  | .working w _ _ _ => some w.factKey
  | .acquiring .. | .reading _ | .waiting _ | .done _ => none

/-- What the operation a call is waiting for does when it takes effect. -/
def CallState.effect (s : Store) : CallState → Store
  | .working _ _ _ phase => phase.effect s
  | _ => s

/-- The call is cut off: with the lock it goes on to release it. -/
def CallState.interrupt (s : Store) (effect : Bool) : CallState → Option (Store × CallState)
  | .done _ => none
  | .releasing _ _ => some (s, .done (.error .interrupted))
  | st => some (if effect then st.effect s else s,
      match st.holds with
      | some factKey => .releasing factKey (.error .interrupted)
      | none => .done (.error .interrupted))

/-- One step of a call, the lock apart. -/
def CallState.advance (v : MutationService) (s : Store) (st : CallState) :
    Answer → Option (Store × CallState)
  | .goes now => st.step v s now
  | .fails effect errorCode => st.fail s effect errorCode
  | .raises effect => st.interrupt s effect

end CountyFlow.Memory
