import CountyFlow.Override.Ledger
import CountyFlow.Runtime.Checkpoint

/-!
# What an override may change

Three places judge an override against checkpoint states.  `RuntimeOverridePolicy.evaluate` decides
a command against the thread and the canonical state, `LangGraphStateUpdater._validate` judges the
checkpoint that the state update produced, and `RuntimeOverrideReconciler._valid` judges the recorded
candidate of a partial override again.
-/

namespace CountyFlow.Override

open CountyFlow.Core CountyFlow.Runtime

/-- `ALLOWED_TRANSITIONS` over `VehicleRuntimeStatus`. -/
def allowedTransitions : List (String × String) :=
  [("NORMAL", "BROKEN"), ("NORMAL", "UNAVAILABLE"), ("NORMAL", "MAINTENANCE")]

structure OverridePolicyResult where
  decision : RuntimeOverrideDecision
  errorCode : Option String
  deriving DecidableEq, Repr

def OverridePolicyResult.allowed (r : OverridePolicyResult) : Bool := r.decision = .allowed

def evaluate (command : RuntimeOverrideCommand) (thread : RuntimeThread) (state : State) :
    OverridePolicyResult :=
  if thread.status = .terminal then ⟨.rejected, some "THREAD_TERMINAL"⟩
  else if thread.status ≠ .stable then ⟨.needsDifferentBoundary, some "THREAD_NOT_STABLE"⟩
  else if (command.entityType, command.field) ≠ ("Vehicle", "status") then
    ⟨.rejected, some "OVERRIDE_FIELD_NOT_ALLOWED"⟩
  else if (thread.currentNode, thread.nextNode) ≠ (some "environment", some "capacity") then
    ⟨.needsDifferentBoundary, some "THREAD_NOT_STABLE"⟩
  else if command.expectedNextNode ≠ none ∧ command.expectedNextNode ≠ thread.nextNode then
    ⟨.needsDifferentBoundary, some "RUNTIME_NEXT_NODE_CONFLICT"⟩
  else if (command.oldValue, command.newValue) ∉ allowedTransitions then
    ⟨.rejected, some "OVERRIDE_VALUE_INVALID"⟩
  else if state.get "vehicle_id" ≠ .str command.entityId then
    ⟨.rejected, some "RUNTIME_STATE_PRECONDITION_FAILED"⟩
  else if state.get "vehicle_status" ≠ .str command.oldValue then
    ⟨.rejected, some "RUNTIME_STATE_PRECONDITION_FAILED"⟩
  else ⟨.allowed, none⟩

/-- `LangGraphStateUpdater._validate` for the patch `{"vehicle_status": new_value}`: the code of
the `ValueError`, if any. -/
def validate (maxCheckpointBytes : ℕ) (source result : CheckpointRecord) (nextNodes : List String)
    (newValue expectedNextNode : String) : Except String Unit :=
  if result.threadId ≠ source.threadId then .error "CHECKPOINT_THREAD_MISMATCH"
  else if result.checkpointNamespace ≠ source.checkpointNamespace ∨
      result.checkpointNamespace ≠ "" then .error "CHECKPOINT_NAMESPACE_MISMATCH"
  else if result.parentCheckpointId ≠ some source.checkpointId then
    .error "CHECKPOINT_ANCESTRY_MISMATCH"
  else if nextNodes ≠ [expectedNextNode] then .error "RUNTIME_NEXT_NODE_CONFLICT"
  else if result.state.get "last_completed_node" ≠ source.state.get "last_completed_node" then
    .error "CHECKPOINT_NODE_MISMATCH"
  else if result.state.get "completed_node_count" ≠ source.state.get "completed_node_count" then
    .error "CHECKPOINT_COUNT_MISMATCH"
  else if State.changedKeys source.state result.state ≠ ["vehicle_status"] then
    .error "STATE_DIFF_NOT_ALLOWED"
  else if result.state.get "vehicle_status" ≠ .str newValue then .error "STATE_DIFF_NOT_ALLOWED"
  else if result.state.jsonSerializable = false then .error "CHECKPOINT_STATE_NOT_JSON_SERIALIZABLE"
  else if maxCheckpointBytes < result.serializedSizeBytes then .error "CHECKPOINT_PAYLOAD_TOO_LARGE"
  else .ok ()

/-- `RuntimeOverrideReconciler._valid`. -/
def candidateValid (maxBytes : ℕ) (item : RuntimeOverride) (source result : CheckpointRecord) :
    Bool :=
  result.threadId = source.threadId ∧
    result.checkpointNamespace = source.checkpointNamespace ∧
    result.checkpointNamespace = "" ∧
    result.parentCheckpointId = some source.checkpointId ∧
    result.serializedSizeBytes ≤ maxBytes ∧
    source.state.get "vehicle_id" = .str item.entityId ∧
    source.state.get "vehicle_status" = .str item.oldValue ∧
    result.state.get "vehicle_status" = .str item.newValue ∧
    result.state.get "last_completed_node" = source.state.get "last_completed_node" ∧
    result.state.get "completed_node_count" = source.state.get "completed_node_count" ∧
    State.changedKeys source.state result.state = ["vehicle_status"] ∧
    result.state.jsonSerializable = true

/-! ### What the answers guarantee -/

structure Allowed (command : RuntimeOverrideCommand) (thread : RuntimeThread) (state : State) :
    Prop where
  status : thread.status = .stable
  target : (command.entityType, command.field) = ("Vehicle", "status")
  boundary : (thread.currentNode, thread.nextNode) = (some "environment", some "capacity")
  nextNode : command.expectedNextNode = none ∨ command.expectedNextNode = thread.nextNode
  transition : (command.oldValue, command.newValue) ∈ allowedTransitions
  entity : state.get "vehicle_id" = .str command.entityId
  oldValue : state.get "vehicle_status" = .str command.oldValue

theorem evaluate_allowed_iff {command : RuntimeOverrideCommand} {thread : RuntimeThread} {state : State} :
    (evaluate command thread state).allowed = true ↔ Allowed command thread state := by
  constructor
  · intro h
    unfold evaluate at h
    split at h
    · simp [OverridePolicyResult.allowed] at h
    split at h
    · simp [OverridePolicyResult.allowed] at h
    split at h
    · simp [OverridePolicyResult.allowed] at h
    split at h
    · simp [OverridePolicyResult.allowed] at h
    split at h
    · simp [OverridePolicyResult.allowed] at h
    split at h
    · simp [OverridePolicyResult.allowed] at h
    split at h
    · simp [OverridePolicyResult.allowed] at h
    split at h
    · simp [OverridePolicyResult.allowed] at h
    rename_i _ hstatus htarget hboundary hnext htrans hentity hold
    refine ⟨not_ne_iff.mp hstatus, not_ne_iff.mp htarget, not_ne_iff.mp hboundary, ?_,
      not_not.mp htrans, not_ne_iff.mp hentity, not_ne_iff.mp hold⟩
    by_cases hnone : command.expectedNextNode = none
    · exact .inl hnone
    · exact .inr (by_contra fun hne => hnext ⟨hnone, hne⟩)
  · intro h
    have hnext : ¬ (command.expectedNextNode ≠ none ∧ command.expectedNextNode ≠ thread.nextNode) := by
      rintro ⟨h1, h2⟩
      exact h.nextNode.elim h1 h2
    unfold evaluate
    rw [if_neg (by simp [h.status]), if_neg (by simp [h.status]), if_neg (not_not.mpr h.target),
      if_neg (not_not.mpr h.boundary), if_neg hnext, if_neg (not_not.mpr h.transition),
      if_neg (not_not.mpr h.entity), if_neg (not_not.mpr h.oldValue)]
    rfl

structure Validated (maxBytes : ℕ) (source result : CheckpointRecord) (nextNodes : List String)
    (newValue expectedNextNode : String) : Prop where
  thread : result.threadId = source.threadId
  namespaces : result.checkpointNamespace = source.checkpointNamespace ∧
    result.checkpointNamespace = ""
  parent : result.parentCheckpointId = some source.checkpointId
  next : nextNodes = [expectedNextNode]
  node : result.state.get "last_completed_node" = source.state.get "last_completed_node"
  count : result.state.get "completed_node_count" = source.state.get "completed_node_count"
  diff : State.changedKeys source.state result.state = ["vehicle_status"]
  value : result.state.get "vehicle_status" = .str newValue
  json : result.state.jsonSerializable = true
  size : result.serializedSizeBytes ≤ maxBytes

variable {source result : CheckpointRecord} {expectedNextNode : String}

variable {maxBytes : ℕ} {nextNodes : List String} {newValue : String}

theorem validate_ok (h : validate maxBytes source result nextNodes newValue expectedNextNode = .ok ()) :
    Validated maxBytes source result nextNodes newValue expectedNextNode := by
  unfold validate at h
  split at h
  · cases h
  split at h
  · cases h
  split at h
  · cases h
  split at h
  · cases h
  split at h
  · cases h
  split at h
  · cases h
  split at h
  · cases h
  split at h
  · cases h
  split at h
  · cases h
  split at h
  · cases h
  rename_i hthread hns hparent hnext hnode hcount hdiff hvalue hjson hsize
  rw [not_or, not_ne_iff, not_ne_iff] at hns
  exact ⟨not_ne_iff.mp hthread, hns, not_ne_iff.mp hparent, not_ne_iff.mp hnext,
    not_ne_iff.mp hnode, not_ne_iff.mp hcount, not_ne_iff.mp hdiff, not_ne_iff.mp hvalue,
    by simpa using hjson, Nat.le_of_not_lt hsize⟩

variable {item : RuntimeOverride}

theorem candidateValid_of_validated
    (hv : Validated maxBytes source result nextNodes item.newValue expectedNextNode)
    (hentity : source.state.get "vehicle_id" = .str item.entityId)
    (hold : source.state.get "vehicle_status" = .str item.oldValue) :
    candidateValid maxBytes item source result = true := by
  unfold candidateValid
  rw [decide_eq_true_eq]
  exact ⟨hv.thread, hv.namespaces.1, hv.namespaces.2, hv.parent, hv.size, hentity, hold, hv.value,
    hv.node, hv.count, hv.diff, hv.json⟩

theorem Validated.accepted (h : Validated maxBytes source result nextNodes newValue expectedNextNode) :
    validate maxBytes source result nextNodes newValue expectedNextNode = .ok () := by
  have hns : ¬ (result.checkpointNamespace ≠ source.checkpointNamespace ∨
      result.checkpointNamespace ≠ "") := by
    rintro (h1 | h2)
    · exact h1 h.namespaces.1
    · exact h2 h.namespaces.2
  unfold validate
  rw [if_neg (not_not.mpr h.thread), if_neg hns, if_neg (not_not.mpr h.parent),
    if_neg (not_not.mpr h.next), if_neg (not_not.mpr h.node), if_neg (not_not.mpr h.count),
    if_neg (not_not.mpr h.diff), if_neg (not_not.mpr h.value), if_neg (by simp [h.json]),
    if_neg (Nat.not_lt.mpr h.size)]

theorem validated_of_candidateValid (h : candidateValid maxBytes item source result = true) :
    Validated maxBytes source result [expectedNextNode] item.newValue expectedNextNode := by
  unfold candidateValid at h
  rw [decide_eq_true_eq] at h
  obtain ⟨hthread, hns, hroot, hparent, hsize, -, -, hvalue, hnode, hcount, hdiff, hjson⟩ := h
  exact ⟨hthread, ⟨hns, hroot⟩, hparent, rfl, hnode, hcount, hdiff, hvalue, hjson, hsize⟩

/-- The result is a child of the source, and its state answers `get` as the source's does, but for
the vehicle status, which is the requested value. -/
structure DirectChild (source result : CheckpointRecord) (newValue : String) : Prop where
  thread : result.threadId = source.threadId
  parent : result.parentCheckpointId = some source.checkpointId
  value : result.state.get "vehicle_status" = .str newValue
  changed : source.state.get "vehicle_status" ≠ .str newValue
  frame : ∀ key, key ≠ "vehicle_status" → result.state.get key = source.state.get key

theorem Validated.directChild (h : Validated maxBytes source result nextNodes newValue expectedNextNode) :
    DirectChild source result newValue where
  thread := h.thread
  parent := h.parent
  value := h.value
  changed := by
    rw [← h.value]
    exact State.mem_changedKeys.mp (by rw [h.diff]; exact List.mem_singleton_self _)
  frame key hkey := by
    by_contra hne
    have hmem : key ∈ State.changedKeys source.state result.state :=
      State.mem_changedKeys.mpr fun heq => hne heq.symm
    rw [h.diff, List.mem_singleton] at hmem
    exact hkey hmem

/-- **The two judgements agree.**  For the row of a command that the policy allowed at the source, and
a result whose next node is the expected one, the updater accepts exactly what the reconciler finds
valid, and then the result is a direct child of the source. -/
theorem candidates_judged_alike {maxBytes : ℕ} {command : RuntimeOverrideCommand} {thread : RuntimeThread}
    {taskId : String} {intentExpiresAt : ℕ} {item : RuntimeOverride} {source result : CheckpointRecord}
    {nextNodes : List String} {expectedNextNode : String}
    (hallowed : (evaluate command thread source.state).allowed = true)
    (hrow : RuntimeOverride.SameRequest (.reserve command taskId intentExpiresAt) item)
    (hnext : nextNodes = [expectedNextNode]) :
    (validate maxBytes source result nextNodes command.newValue expectedNextNode = .ok () ↔
        candidateValid maxBytes item source result = true) ∧
      (candidateValid maxBytes item source result = true →
        DirectChild source result command.newValue) := by
  have hallowed := evaluate_allowed_iff.mp hallowed
  have hentity : item.entityId = command.entityId := hrow.entityId
  have hold : item.oldValue = command.oldValue := hrow.oldValue
  have hnew : item.newValue = command.newValue := hrow.newValue
  subst hnext
  refine ⟨⟨fun h => ?_, fun h => ?_⟩, fun h => ?_⟩
  · have hv := validate_ok h
    rw [← hnew] at hv
    exact candidateValid_of_validated hv (hentity ▸ hallowed.entity) (hold ▸ hallowed.oldValue)
  · rw [← hnew]
    exact (validated_of_candidateValid h).accepted
  · have hv : Validated maxBytes source result [expectedNextNode] item.newValue expectedNextNode :=
      validated_of_candidateValid h
    rw [← hnew]
    exact hv.directChild

/-- A command to break the vehicle `V1` of the thread `T1`. -/
def breakVehicle : RuntimeOverrideCommand where
  overrideId := "O1"
  idempotencyKey := "K1"
  threadId := "T1"
  entityType := "Vehicle"
  entityId := "V1"
  field := "status"
  oldValue := "NORMAL"
  newValue := "BROKEN"
  reason := "engine failure"
  expectedVersion := 4
  expectedNextNode := some "capacity"
  operatorId := "U1"
  operatorRole := "OPERATOR"
  requestedAt := 0

/-- The thread `T1` before its capacity node. -/
def beforeCapacity : RuntimeThread :=
  { (ThreadRecord.create "D1" "T1").row with
    status := .stable
    currentCheckpointId := some "c4"
    stateVersion := 4
    currentNode := some "environment"
    nextNode := some "capacity"
    checkpointCount := 4 }

def environmentCheckpoint : CheckpointRecord where
  threadId := "T1"
  checkpointId := "c4"
  parentCheckpointId := some "c3"
  checkpointNamespace := ""
  state := [("vehicle_id", .str "V1"), ("vehicle_status", .str "NORMAL")]
  serializedSizeBytes := 64

/-- A child of it in which the vehicle is broken, and a key has appeared that holds `None`. -/
def brokenCheckpoint : CheckpointRecord where
  threadId := "T1"
  checkpointId := "c5"
  parentCheckpointId := some "c4"
  checkpointNamespace := ""
  state := [("vehicle_id", .str "V1"), ("vehicle_status", .str "BROKEN"), ("plan", .none)]
  serializedSizeBytes := 64

theorem candidates_judged_alike_broken :
    validate 1024 environmentCheckpoint brokenCheckpoint ["capacity"] "BROKEN" "capacity" = .ok () ↔
      candidateValid 1024 (.reserve breakVehicle "D1" 30) environmentCheckpoint brokenCheckpoint =
        true := by
  have hallowed : (evaluate breakVehicle beforeCapacity environmentCheckpoint.state).allowed = true := by
    decide
  exact (candidates_judged_alike hallowed (RuntimeOverride.SameRequest.refl _) rfl).1

/-- The states need not have the same keys: both judgements accept a key that has appeared with
`None`. -/
theorem plan_key_accepted :
    (evaluate breakVehicle beforeCapacity environmentCheckpoint.state).allowed = true ∧
      validate 1024 environmentCheckpoint brokenCheckpoint ["capacity"] "BROKEN" "capacity" =
        .ok () ∧
      candidateValid 1024 (.reserve breakVehicle "D1" 30) environmentCheckpoint brokenCheckpoint =
        true ∧
      ¬ ∀ key, key ≠ "vehicle_status" →
        brokenCheckpoint.state.lookup key = environmentCheckpoint.state.lookup key := by
  refine ⟨by decide, by decide, by decide, fun h => ?_⟩
  have hplan := h "plan" (by decide)
  exact absurd hplan (by decide)

end CountyFlow.Override
