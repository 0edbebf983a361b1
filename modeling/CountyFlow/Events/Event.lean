import CountyFlow.Core.Value

/-!
# Task events

`TaskEvent` of `app/events/models.py`, and the object that is stored for it.
-/

namespace CountyFlow.Events

open CountyFlow.Core

inductive TaskEventType where
  | taskSnapshot | taskAccepted | workerStarted | intakeStarted | intakeCompleted | memoryStarted
  | memoryCompleted | graphMemoryStarted | graphMemoryCompleted | graphMemoryDegraded
  | environmentStarted | environmentCompleted | environmentFallback | capacityStarted
  | capacityCompleted | routingStarted | routingCompleted | dispatchStarted | dispatchCompleted
  | auditStarted | auditCompleted | taskCompleted | taskReviewRequired | taskFailed
  | memoryMutationRequested | memoryMutationApplied | memoryMutationRejected
  | memoryMutationConflict | memoryMutationPartial | threadCheckpointed | threadResumed
  | threadTerminal | runtimeOverrideRequested | runtimeOverrideApplied | runtimeOverrideRejected
  | runtimeOverrideConflict | runtimeOverridePartial
  deriving DecidableEq, Repr

def TaskEventType.value : TaskEventType → String
  | .taskSnapshot => "TASK_SNAPSHOT"
  | .taskAccepted => "TASK_ACCEPTED"
  | .workerStarted => "WORKER_STARTED"
  | .intakeStarted => "INTAKE_STARTED"
  | .intakeCompleted => "INTAKE_COMPLETED"
  | .memoryStarted => "MEMORY_STARTED"
  | .memoryCompleted => "MEMORY_COMPLETED"
  | .graphMemoryStarted => "GRAPH_MEMORY_STARTED"
  | .graphMemoryCompleted => "GRAPH_MEMORY_COMPLETED"
  | .graphMemoryDegraded => "GRAPH_MEMORY_DEGRADED"
  | .environmentStarted => "ENVIRONMENT_STARTED"
  | .environmentCompleted => "ENVIRONMENT_COMPLETED"
  | .environmentFallback => "ENVIRONMENT_FALLBACK"
  | .capacityStarted => "CAPACITY_STARTED"
  | .capacityCompleted => "CAPACITY_COMPLETED"
  | .routingStarted => "ROUTING_STARTED"
  | .routingCompleted => "ROUTING_COMPLETED"
  | .dispatchStarted => "DISPATCH_STARTED"
  | .dispatchCompleted => "DISPATCH_COMPLETED"
  | .auditStarted => "AUDIT_STARTED"
  | .auditCompleted => "AUDIT_COMPLETED"
  | .taskCompleted => "TASK_COMPLETED"
  | .taskReviewRequired => "TASK_REVIEW_REQUIRED"
  | .taskFailed => "TASK_FAILED"
  | .memoryMutationRequested => "MEMORY_MUTATION_REQUESTED"
  | .memoryMutationApplied => "MEMORY_MUTATION_APPLIED"
  | .memoryMutationRejected => "MEMORY_MUTATION_REJECTED"
  | .memoryMutationConflict => "MEMORY_MUTATION_CONFLICT"
  | .memoryMutationPartial => "MEMORY_MUTATION_PARTIAL"
  | .threadCheckpointed => "THREAD_CHECKPOINTED"
  | .threadResumed => "THREAD_RESUMED"
  | .threadTerminal => "THREAD_TERMINAL"
  | .runtimeOverrideRequested => "RUNTIME_OVERRIDE_REQUESTED"
  | .runtimeOverrideApplied => "RUNTIME_OVERRIDE_APPLIED"
  | .runtimeOverrideRejected => "RUNTIME_OVERRIDE_REJECTED"
  | .runtimeOverrideConflict => "RUNTIME_OVERRIDE_CONFLICT"
  | .runtimeOverridePartial => "RUNTIME_OVERRIDE_PARTIAL"

/-- The members of `TaskEventType`. -/
def taskEventTypes : List TaskEventType :=
  [.taskSnapshot, .taskAccepted, .workerStarted, .intakeStarted, .intakeCompleted,
    .memoryStarted, .memoryCompleted, .graphMemoryStarted, .graphMemoryCompleted,
    .graphMemoryDegraded, .environmentStarted, .environmentCompleted, .environmentFallback,
    .capacityStarted, .capacityCompleted, .routingStarted, .routingCompleted, .dispatchStarted,
    .dispatchCompleted, .auditStarted, .auditCompleted, .taskCompleted, .taskReviewRequired,
    .taskFailed, .memoryMutationRequested, .memoryMutationApplied, .memoryMutationRejected,
    .memoryMutationConflict, .memoryMutationPartial, .threadCheckpointed, .threadResumed,
    .threadTerminal, .runtimeOverrideRequested, .runtimeOverrideApplied,
    .runtimeOverrideRejected, .runtimeOverrideConflict, .runtimeOverridePartial]

/-- `TaskEventType(value)`, `none` for a `ValueError`. -/
def TaskEventType.ofValue (value : String) : Option TaskEventType :=
  taskEventTypes.find? fun type => type.value = value

theorem TaskEventType.ofValue_value (type : TaskEventType) :
    TaskEventType.ofValue type.value = some type := by
  cases type <;> decide +kernel

structure TaskEvent where
  eventId : String
  taskId : String
  eventType : TaskEventType
  node : String
  status : String
  timestamp : String
  sequence : ℤ
  data : Option State
  correlationId : Option String
  deriving DecidableEq

namespace TaskEvent

def withSequence (event : TaskEvent) (sequence : ℤ) : TaskEvent := { event with sequence := sequence }

def withEventId (event : TaskEvent) (eventId : String) : TaskEvent := { event with eventId := eventId }

@[simp] theorem withSequence_sequence (event : TaskEvent) (n : ℤ) : (event.withSequence n).sequence = n := rfl

def toDict (event : TaskEvent) : State :=
  [("event_id", .str event.eventId), ("task_id", .str event.taskId),
    ("event_type", .str event.eventType.value), ("node", .str event.node), ("status", .str event.status),
    ("timestamp", .str event.timestamp), ("sequence", .int event.sequence),
    ("data", .dict (event.data.getD [])),
    ("correlation_id", (event.correlationId.map Value.str).getD .none)]

def textField (payload : State) (key : String) : Except String String :=
  match payload.get key with
  | .str s => .ok s
  | _ => .error "Task event fields are invalid."

/-- The truth of a correlation id that is a text or missing. -/
def correlationOf (payload : State) : Option String :=
  match payload.get "correlation_id" with
  | .str s => if s = "" then none else some s
  | _ => none

/-- `from_dict`; the message is that of the `ValueError`. -/
def fromDict (payload : State) : Except String TaskEvent :=
  match payload.get "data" with
  | .dict data => do
      let eventId ← textField payload "event_id"
      let taskId ← textField payload "task_id"
      let node ← textField payload "node"
      let status ← textField payload "status"
      let timestamp ← textField payload "timestamp"
      match payload.get "sequence" with
      | .int sequence =>
        match payload.get "event_type" with
        | .str value =>
          match TaskEventType.ofValue value with
          | some eventType =>
            .ok ⟨eventId, taskId, eventType, node, status, timestamp, sequence, some data,
              correlationOf payload⟩
          | none => .error (value ++ " is not a valid TaskEventType")
        | _ => .error "not a valid TaskEventType"
      | _ => .error "Task event sequence is invalid."
  | _ => .error "Task event data must be an object."

/-- What storing an event makes of it: no data become an empty object, an empty correlation id none. -/
def stored (event : TaskEvent) : TaskEvent :=
  { event with
    data := some (event.data.getD [])
    correlationId := if event.correlationId = some "" then none else event.correlationId }

@[simp] theorem stored_sequence (event : TaskEvent) : event.stored.sequence = event.sequence := rfl

theorem correlationOf_stored (event : TaskEvent) (payload : State)
    (h : payload.get "correlation_id" = (event.correlationId.map Value.str).getD .none) :
    correlationOf payload = event.stored.correlationId := by
  unfold correlationOf stored
  rw [h]
  cases event.correlationId with
  | none => rfl
  | some s =>
    show (if s = "" then none else some s) = if some s = some "" then none else some s
    simp

theorem fromDict_of_fields {payload : State} {event : TaskEvent}
    (hdata : payload.get "data" = .dict (event.data.getD []))
    (hid : payload.get "event_id" = .str event.eventId) (htask : payload.get "task_id" = .str event.taskId)
    (hnode : payload.get "node" = .str event.node) (hstatus : payload.get "status" = .str event.status)
    (htime : payload.get "timestamp" = .str event.timestamp)
    (hsequence : payload.get "sequence" = .int event.sequence)
    (htype : payload.get "event_type" = .str event.eventType.value)
    (hcorrelation : payload.get "correlation_id" = (event.correlationId.map Value.str).getD .none) :
    fromDict payload = .ok event.stored := by
  have hstored := correlationOf_stored event payload hcorrelation
  simp only [fromDict, textField, hdata, hid, htask, hnode, hstatus, htime, hsequence, htype,
    TaskEventType.ofValue_value, hstored, bind, Except.bind]
  rfl

theorem fromDict_toDict (event : TaskEvent) : fromDict event.toDict = .ok event.stored := by
  apply fromDict_of_fields <;> rfl

end TaskEvent

end CountyFlow.Events
