import CountyFlow.Runtime.Checkpoint
import CountyFlow.Worker.Acknowledge

/-!
# A worker with a checkpointed runner

`DispatchWorker._process_graph` with `CheckpointedGraphRunner` and `ThreadCheckpointReconciler`, one
worker at a time and undisturbed: the steps of `WorkerState.step` with the outcomes that a healthy
database and queue give, and inside the graph the steps of the runner.

The agents are parameters: what a node adds to the state depends on the state alone, so that a node
that is executed again gives what it gave before.  Of LangGraph the model uses what its documentation
says of `astream` with a checkpointer: a run on an input first writes a checkpoint before the input and
one with it, a run on a checkpoint id goes on from that checkpoint, and every node is followed by a
checkpoint whose parent is the one before.  `list_bounded` answers with the newest records first.
-/

namespace CountyFlow.Core.State

/-- `{**state, **patch}`. -/
def merge (s patch : State) : State := (s.filter fun e => (patch.lookup e.1).isNone) ++ patch

theorem lookup_filter (s : State) (p : String → Bool) (k : String) :
    List.lookup k (s.filter fun e => p e.1) = if p k then List.lookup k s else none := by
  induction s with
  | nil =>
    cases p k
    · rfl
    · rfl
  | cons e s ih =>
    obtain ⟨l, v⟩ := e
    by_cases hkl : k = l
    · subst hkl
      cases hp : p k with
      | true => simp [hp]
      | false =>
        rw [List.filter_cons_of_neg (by simp [hp]), ih, hp]
        rfl
    · have hne : (k == l) = false := by simpa using hkl
      cases hp : p l with
      | true =>
        rw [List.filter_cons_of_pos (by simpa using hp), List.lookup_cons, hne, ih,
          List.lookup_cons, hne]
      | false =>
        rw [List.filter_cons_of_neg (by simp [hp]), ih, List.lookup_cons, hne]

theorem get_merge (s patch : State) (k : String) :
    (s.merge patch).get k = if (patch.lookup k).isSome then patch.get k else s.get k := by
  unfold get merge
  rw [List.lookup_append, lookup_filter s (fun l => (patch.lookup l).isNone) k]
  cases h : patch.lookup k with
  | none => simp
  | some v => simp

theorem get_merge_of_lookup {s patch : State} {k : String} {v : Value}
    (h : List.lookup k patch = some v) : (s.merge patch).get k = v := by
  rw [get_merge, h]
  show patch.get k = v
  unfold get
  rw [h]
  rfl

theorem merge_self (s : State) : s.merge s = s := by
  have hnone : (s.filter fun e => (s.lookup e.1).isNone) = [] := by
    refine List.filter_eq_nil_iff.mpr fun e he hcond => ?_
    have hnot := List.lookup_eq_none_iff.mp (Option.isNone_iff_eq_none.mp hcond) e he
    simp at hnot
  unfold merge
  rw [hnone]
  rfl

end CountyFlow.Core.State

namespace CountyFlow.Worker

open CountyFlow.Core CountyFlow.Lib CountyFlow.Runtime

/-! ### The agents -/

/-- What the nodes of the graph do for a task.  `patch` is what a node other than the audit returns;
only the audit reports `AUDIT_PERSISTENCE_ERROR`, and not here, where the database works. -/
structure Agents where
  input : State
  patch : String → State → State
  proposal : State → Option (ℕ × DispatchStatus)
  verdict : State → AuditResult
  manualReview : State → Bool
  reason : State → String
  auditId : ℕ
  ids : ℕ → String
  size : State → ℕ
  ids_injective : Function.Injective ids
  input_node : List.lookup "last_completed_node" input = none
  input_count : List.lookup "completed_node_count" input = none
  input_error : input.get "error_code" ≠ .str "AUDIT_PERSISTENCE_ERROR"
  patch_error : ∀ node s, (patch node s).get "error_code" ≠ .str "AUDIT_PERSISTENCE_ERROR"

namespace Agents

variable (agents : Agents)

/-- What `audit_node` returns. -/
def auditPatch (s : State) : State :=
  [("audit_result", .dict [("audit_status", .str (agents.verdict s).status.text)]),
    ("requires_manual_review", .bool (agents.manualReview s))]

def nodePatch (node : String) (s : State) : State :=
  if node = "audit" then agents.auditPatch s else agents.patch node s

/-- `state.get("completed_node_count", 0)`. -/
def completedNodeCount (s : State) : ℤ :=
  match s.get "completed_node_count" with
  | .int z => z
  | _ => 0

/-- What `_instrument_node` returns. -/
def instrumented (node : String) (s : State) : State :=
  (agents.nodePatch node s).merge
    [("last_completed_node", .str node), ("completed_node_count", .int (completedNodeCount s + 1))]

/-- The state after the first nodes. -/
def stateAt : ℕ → State
  | 0 => agents.input
  | k + 1 => (stateAt k).merge (agents.instrumented (nodeOrder.getD k "") (stateAt k))

/-- What `_terminal_state` reads of a state. -/
def finalState (s : State) : FinalState where
  errorCode :=
    match s.get "error_code" with
    | .str code => some code
    | _ => none
  requiresManualReview := s.get "requires_manual_review" = .bool true
  auditStatus :=
    match s.get "audit_result" with
    | .dict entries =>
      match entries.lookup "audit_status" with
      | some (.str status) => some status
      | _ => none
    | _ => none

end Agents

/-! ### The machine -/

/-- Where the run of a graph stands: the state, the checkpoint it continues, the nodes that are left,
the key of a resumption that is not marked yet, and what the run has returned so far. -/
structure Position where
  state : State
  parent : String
  rest : List String
  resume : Option String
  result : State

/-- A point of `_process_graph` between two steps. -/
inductive RunnerState where
  | outside
  | opening
  | feeding
  | resuming (checkpointId : String)
  | ready (pos : Position)
  | executed (node : String) (pos : Position)
  | saved (node : String) (pos : Position)

/-- One worker, what it shares, and the checkpoints of the thread, the newest first. -/
structure Machine where
  world : World
  records : List CheckpointRecord
  worker : WorkerState
  runner : RunnerState

structure Setup where
  runtime : RuntimeConfig
  agents : Agents
  now : ℕ
  pick : ℕ

namespace Machine

variable (setup : Setup) (config : WorkerConfig) (p : ℕ)

def calm (mend : Option PromoteCheckpoint) (graph : GraphStep) : Outcome where
  now := setup.now
  raises := false
  pick := setup.pick
  mend := mend
  graph := graph

def work (m : Machine) (o : Outcome) (runner : RunnerState) : Option Machine :=
  (WorkerState.step config p o m.world m.worker).map fun (st, w) =>
    { m with world := w, worker := st, runner := runner }

def call (m : Machine) (graph : GraphStep) (runner : RunnerState) : Option Machine :=
  m.work config p (calm setup none graph) runner

/-- An exception inside the graph. -/
def broken (m : Machine) : Option Machine := m.call setup config p .failed .outside

def record (agents : Agents) (m : Machine) (threadId : String) (parent : Option String) (s : State) :
    CheckpointRecord where
  threadId := threadId
  checkpointId := agents.ids m.records.length
  parentCheckpointId := parent
  checkpointNamespace := ""
  state := s
  serializedSizeBytes := agents.size s

/-- The checkpointer writes a record. -/
def save (agents : Agents) (m : Machine) (threadId : String) (parent : Option String) (s : State)
    (runner : RunnerState) : Machine :=
  { m with records := record agents m threadId parent s :: m.records, runner := runner }

def nodesAfter (s : State) : List String :=
  match s.get "last_completed_node" with
  | .str node => nodeOrder.drop (nodeOrder.idxOf node + 1)
  | _ => nodeOrder

/-- `_runtime_thread`: the reconciler looks at a thread that can go on. -/
def mend (m : Machine) (msg : StreamMessage) : Option Machine :=
  match m.world.db.threads msg.task.taskId with
  | none => m.work config p (calm setup none .failed) .outside
  | some r =>
    if r.row.status = .terminal ∨ r.row.nextNode = none then
      m.work config p (calm setup none .failed) .outside
    else match reconcileCandidate setup.runtime r.row
        (m.records.take setup.runtime.scanLimit) config.consumerName with
      | .error _ => m.work config p { calm setup none .failed with raises := true } .outside
      | .ok command => m.work config p (calm setup command .failed) .outside

/-- `_process_graph` up to the stream of updates. -/
def enter (m : Machine) (r : ThreadRecord) : Option Machine :=
  match r.row.currentCheckpointId with
  | none => some { m with runner := .opening }
  | some c =>
    match r.row.status, r.row.nextNode with
    | .stable, none => m.broken setup config p
    | .stable, some node => m.call setup config p
        (.thread (.claimNextNode c r.row.stateVersion node)) (.resuming c)
    | .terminal, _ => m.broken setup config p
    | _, _ => some { m with runner := .resuming c }

def resumeKey (config : WorkerConfig) (msg : StreamMessage) (c : String) : String :=
  c ++ ":" ++ msg.messageId ++ ":" ++ toString (msg.deliveryCount.getD 1) ++ ":" ++ config.consumerName

def execute (m : Machine) (node : String) (pos : Position) : Option Machine :=
  let done := RunnerState.executed node { pos with
    state := pos.state.merge (setup.agents.instrumented node pos.state)
    result := pos.result.merge (setup.agents.instrumented node pos.state) }
  if node = "dispatch" then
    match setup.agents.proposal pos.state with
    | none => some { m with runner := done }
    | some (id, status) => m.call setup config p (.dispatch id status) done
  else if node = "audit" then
    m.call setup config p (.audit setup.agents.auditId (setup.agents.verdict pos.state)
      (setup.agents.reason pos.state)) done
  else some { m with runner := done }

/-- An update of the stream: the resumption is marked once, then the checkpoint of the node is
promoted. -/
def update (m : Machine) (r : ThreadRecord) (node : String) (pos : Position) : Option Machine :=
  match pos.resume with
  | some key => m.call setup config p (.thread (.resumed key))
      (.saved node { pos with resume := none })
  | none =>
    match latestBoundary r.row node (m.records.take boundaryListing) with
    | none => m.broken setup config p
    | some record =>
      match runnerCommand setup.runtime r.row record node config.consumerName with
      | .error _ => m.broken setup config p
      | .ok command => m.call setup config p (.thread (.promote command)) (.ready pos)

def latest (m : Machine) : State := (m.records.head?.map CheckpointRecord.state).getD []

/-- A step inside the graph. -/
def advance (m : Machine) (msg : StreamMessage) (r : ThreadRecord) : Option Machine :=
  match m.runner with
  | .outside => m.enter setup config p r
  | .opening => some (m.save setup.agents r.row.threadId
      (m.records.head?.map CheckpointRecord.checkpointId) m.latest .feeding)
  | .feeding => some (m.save setup.agents r.row.threadId
      (m.records.head?.map CheckpointRecord.checkpointId) (m.latest.merge setup.agents.input)
      (.ready ⟨m.latest.merge setup.agents.input, setup.agents.ids m.records.length, nodeOrder, none,
        setup.agents.input⟩))
  | .resuming c =>
    match m.records.find? fun record => record.checkpointId = c with
    | none => m.broken setup config p
    | some record => some { m with
        runner := .ready ⟨record.state, c, nodesAfter record.state, some (resumeKey config msg c), []⟩ }
  | .ready pos =>
    match pos.rest with
    | [] => m.call setup config p (.finished (Agents.finalState pos.result)) .outside
    | node :: rest => m.execute setup config p node { pos with rest := rest }
  | .executed node pos => some (m.save setup.agents r.row.threadId (some pos.parent) pos.state
      (.saved node { pos with parent := setup.agents.ids m.records.length }))
  | .saved node pos => m.update setup config p r node pos

/-- One step of a healthy worker; `none` when it is over. -/
def step (m : Machine) : Option Machine :=
  match m.worker with
  | .mending msg _ => m.mend setup config p msg
  | .running msg _ =>
    match m.world.db.threads msg.task.taskId with
    | none => none
    | some r => m.advance setup config p msg r
  | _ => m.work config p (calm setup none .failed) .outside

def steps : ℕ → Machine → Option Machine
  | 0, m => some m
  | n + 1, m => (m.step setup config p).bind (steps n)

/-- The worker comes to its end, in a state with the property. -/
def Ends (m : Machine) (P : Machine → Prop) : Prop :=
  ∃ n m', m.steps setup config p n = some m' ∧ (∃ r, m'.worker = .done r) ∧ P m'

/-! ### A crash -/

/-- The worker is gone and its lock has expired; a message that is still pending is claimed, and its
delivery counted. -/
def redeliver (id : String) (m : Machine) : Machine :=
  match m.world.stream id with
  | some ⟨task, .pending n⟩ =>
    { m with
      world := { m.world with
        locks := Function.update m.world.locks task.idempotencyKey none
        stream := Function.update m.world.stream id (some ⟨task, .pending (n + 1)⟩) }
      worker := .recovering ⟨id, task, some (n + 1)⟩
      runner := .outside }
  | _ => { m with worker := .done none, runner := .outside }

/-- The ledger shows the status, the thread is `TERMINAL` and the message is acknowledged. -/
def Completed (id : String) (task : DispatchTaskMessage) (status : TaskStatus) (m : Machine) : Prop :=
  m.world.db.status task.taskId = some status ∧ m.world.db.Terminated task.taskId ∧
    m.world.stream id = some ⟨task, .acknowledged⟩

/-- The worker that takes the message over cannot go on.  The ledger shows no outcome, and either there
is no dispatch row and the last node has left its checkpoint; or the reconciler sees less than three
checkpoints, and the newest is the one of the first node, which is not promoted. -/
def Stranded (setup : Setup) (task : DispatchTaskMessage) (m : Machine) : Prop :=
  ¬ m.world.db.Recorded task.taskId ∧
    ((m.world.db.dispatches.find task.taskId = none ∧
        ∃ record ∈ m.records, record.state.get "last_completed_node" = .str "audit") ∨
      (setup.runtime.scanLimit < 3 ∧
        (∃ record, m.records.head? = some record ∧
          record.state.get "last_completed_node" = .str "intake") ∧
        ∃ r, m.world.db.threads task.taskId = some r ∧ r.row.currentCheckpointId = none))

/-! ### The states of the nodes -/

end Machine

namespace Agents

variable (agents : Agents)

theorem input_zero : agents.input.get "completed_node_count" = .none := by
  unfold State.get
  rw [agents.input_count]
  rfl

theorem input_last : agents.input.get "last_completed_node" = .none := by
  unfold State.get
  rw [agents.input_node]
  rfl

theorem nodePatch_error (node : String) (s : State) :
    (agents.nodePatch node s).get "error_code" ≠ .str "AUDIT_PERSISTENCE_ERROR" := by
  unfold nodePatch
  split
  · intro h
    cases h
  · exact agents.patch_error node s

theorem instrumented_node (node : String) (s : State) :
    (agents.instrumented node s).lookup "last_completed_node" = some (.str node) := by
  unfold instrumented State.merge
  rw [List.lookup_append, State.lookup_filter _ (fun l => (List.lookup l [("last_completed_node",
    Value.str node), ("completed_node_count", Value.int (completedNodeCount s + 1))]).isNone)]
  rfl

theorem instrumented_count (node : String) (s : State) :
    (agents.instrumented node s).lookup "completed_node_count" =
      some (.int (completedNodeCount s + 1)) := by
  unfold instrumented State.merge
  rw [List.lookup_append, State.lookup_filter _ (fun l => (List.lookup l [("last_completed_node",
    Value.str node), ("completed_node_count", Value.int (completedNodeCount s + 1))]).isNone)]
  rfl

theorem stateAt_node (k : ℕ) :
    (agents.stateAt (k + 1)).get "last_completed_node" = .str (nodeOrder.getD k "") :=
  State.get_merge_of_lookup (agents.instrumented_node _ _)

theorem completedNodeCount_stateAt (k : ℕ) : completedNodeCount (agents.stateAt k) = k := by
  induction k with
  | zero =>
    unfold completedNodeCount
    show (match agents.input.get "completed_node_count" with | .int z => z | _ => 0) = _
    rw [agents.input_zero]
    rfl
  | succ k ih =>
    have hcount : (agents.stateAt (k + 1)).get "completed_node_count" =
        .int (completedNodeCount (agents.stateAt k) + 1) :=
      State.get_merge_of_lookup (agents.instrumented_count _ _)
    unfold completedNodeCount
    rw [hcount, ih]
    rfl

theorem stateAt_count (k : ℕ) : (agents.stateAt (k + 1)).get "completed_node_count" = .int (k + 1) := by
  rw [← agents.completedNodeCount_stateAt k]
  exact State.get_merge_of_lookup (agents.instrumented_count _ _)

end Agents

/-! ### Runs of the machine -/

variable {m m₁ m' : Machine} {Q : Machine → Prop}

namespace Machine

variable {setup : Setup} {config : WorkerConfig} {p : ℕ}

/-- The machine comes from the first state to the last, through states with the property. -/
inductive Passes (setup : Setup) (config : WorkerConfig) (p : ℕ) (P : Machine → Prop) :
    Machine → Machine → Prop
  | here {m : Machine} : P m → Passes setup config p P m m
  | next {m m₁ m' : Machine} : P m → m.step setup config p = some m₁ →
      Passes setup config p P m₁ m' → Passes setup config p P m m'

variable {P : Machine → Prop}

theorem Passes.trans (h : Passes setup config p P m m₁)
    (h' : Passes setup config p P m₁ m') : Passes setup config p P m m' := by
  induction h with
  | here _ => exact h'
  | next hm hstep _ ih => exact .next hm hstep (ih h')

theorem Passes.mono (h : Passes setup config p P m m')
    (hPQ : ∀ m₁, P m₁ → Q m₁) : Passes setup config p Q m m' := by
  induction h with
  | here hm => exact .here (hPQ _ hm)
  | next hm hstep _ ih => exact .next (hPQ _ hm) hstep ih

theorem Passes.one (hm : P m) (hstep : m.step setup config p = some m') (hm' : P m') :
    Passes setup config p P m m' :=
  .next hm hstep (.here hm')

theorem Passes.steps (h : Passes setup config p P m m') : ∃ n, m.steps setup config p n = some m' := by
  induction h with
  | here _ => exact ⟨0, rfl⟩
  | next _ hstep _ ih =>
    obtain ⟨n, hn⟩ := ih
    refine ⟨n + 1, ?_⟩
    show Option.bind _ _ = _
    rw [hstep]
    exact hn

theorem Passes.all (h : Passes setup config p P m m') (hend : m'.step setup config p = none) {n : ℕ}
    (hn : m.steps setup config p n = some m₁) : P m₁ := by
  induction h generalizing n with
  | here hm =>
    cases n with
    | zero =>
      cases hn
      exact hm
    | succ n =>
      obtain ⟨m₂, hstep, -⟩ := Option.bind_eq_some_iff.mp hn
      rw [hend] at hstep
      cases hstep
  | next hm hstep _ ih =>
    cases n with
    | zero =>
      cases hn
      exact hm
    | succ n =>
      obtain ⟨m₂, hstep', hrest⟩ := Option.bind_eq_some_iff.mp hn
      rw [hstep] at hstep'
      cases hstep'
      exact ih hend hrest

theorem step_done (h : ∃ r, m.worker = .done r) : m.step setup config p = none := by
  obtain ⟨r, hr⟩ := h
  unfold step
  rw [hr]
  unfold work
  rw [hr]
  rfl

theorem Passes.ends_iff (h : Passes setup config p P m m')
    (hdone : ∃ r, m'.worker = .done r) : m.Ends setup config p Q ↔ Q m' := by
  constructor
  · rintro ⟨n, m₁, hn, hdone₁, hQ⟩
    -- where the run is over it is over for every count of steps, so both ends are one
    have hsame : m₁ = m' := by
      induction h generalizing n with
      | here _ =>
        cases n with
        | zero => exact (Option.some.inj hn).symm
        | succ n =>
          obtain ⟨m₂, hstep, -⟩ := Option.bind_eq_some_iff.mp hn
          rw [step_done hdone] at hstep
          cases hstep
      | next _ hstep _ ih =>
        cases n with
        | zero =>
          cases hn
          rw [step_done hdone₁] at hstep
          cases hstep
        | succ n =>
          obtain ⟨m₂, hstep', hrest⟩ := Option.bind_eq_some_iff.mp hn
          rw [hstep] at hstep'
          cases hstep'
          exact ih hdone n hrest
    rw [← hsame]
    exact hQ
  · intro hQ
    obtain ⟨n, hn⟩ := h.steps
    exact ⟨n, m', hn, hdone, hQ⟩

end Machine

end CountyFlow.Worker
