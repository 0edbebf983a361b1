import CountyFlow.Worker.Resume

/-!
# The routes of a worker

What a healthy worker does from the points a message can be in, step by step to the end: it asks the
ledger and the thread, runs the nodes that are left, and closes a task whose outcome is known.  Each
route says which states the worker comes through, so that a crash can be put between any two steps.
-/

namespace CountyFlow.Worker

open CountyFlow.Core CountyFlow.Lib CountyFlow.Runtime

/-! ### The end of a message -/

/-- The task as it stands while its message is pending. -/
structure Held (msg : StreamMessage) (n : ℕ) (m : Machine) (rs : List CheckpointRecord)
    (status : TaskStatus) (r : ThreadRecord) (d : Option Dispatch) (as : List AuditRecord) : Prop where
  shows : Shows msg.task m.world.db status r d as
  stream : m.world.stream msg.messageId = some ⟨msg.task, .pending n⟩
  records : m.records = rs
  honest : Honest r

/-- The outcome is recorded, in the thread and in the ledger. -/
structure Closed (msg : StreamMessage) (n : ℕ) (status : TaskStatus) (m : Machine) : Prop where
  shows : ∃ r d as, Shows msg.task m.world.db status r d as ∧ r.row.status = .terminal
  stream : m.world.stream msg.messageId = some ⟨msg.task, .pending n⟩ ∨
    m.world.stream msg.messageId = some ⟨msg.task, .acknowledged⟩

/-- The thread is as it was, or it is `TERMINAL` where it was. -/
def Marked (r r' : ThreadRecord) : Prop :=
  r' = r ∨ (r'.row.status = .terminal ∧ r'.row.nextNode = none ∧
    r'.row.currentCheckpointId = r.row.currentCheckpointId)

variable {r' : ThreadRecord}

theorem Marked.of_markTerminal {r : ThreadRecord} {key consumer : String} {node code : Option String}
    {now : ℕ} (h : r.markTerminal key consumer node code now true = .ok r') : Marked r r' := by
  rcases ThreadRecord.markTerminal_ok h with ⟨-, hsame⟩ | ⟨-, -, rfl⟩
  · exact .inl hsame
  · exact .inr ⟨rfl, rfl, rfl⟩

/-- The database, the stream and the checkpoints are as they were. -/
structure Machine.Keeps (m m' : Machine) : Prop where
  db : m'.world.db = m.world.db
  stream : m'.world.stream = m.world.stream
  records : m'.records = m.records

theorem Machine.Keeps.trans {m m₁ m₂ : Machine} (h : m.Keeps m₁) (h' : m₁.Keeps m₂) : m.Keeps m₂ :=
  ⟨h'.db.trans h.db, h'.stream.trans h.stream, h'.records.trans h.records⟩

theorem Held.keeps {msg : StreamMessage} {n : ℕ} {m m' : Machine} {rs : List CheckpointRecord}
    {status : TaskStatus} {r : ThreadRecord} {d : Option Dispatch} {as : List AuditRecord}
    (h : Held msg n m rs status r d as) (hkeeps : m.Keeps m') : Held msg n m' rs status r d as := by
  refine ⟨?_, ?_, ?_, h.honest⟩
  · rw [hkeeps.db]
    exact h.shows
  · rw [hkeeps.stream]
    exact h.stream
  · rw [hkeeps.records]
    exact h.records

namespace Machine

variable {setup : Setup} {config : WorkerConfig} {p : ℕ} {msg : StreamMessage} {n : ℕ}
  {P : Machine → Prop} {m : Machine} {rs : List CheckpointRecord} {status : TaskStatus}
  {r : ThreadRecord} {d : Option Dispatch} {as : List AuditRecord} {path : Path}

theorem Passes.plain {st : WorkerState} {m' : Machine} (st' : WorkerState) (w' : World) (hm : m.worker = st)
    (hplain : ∀ msg state, st ≠ .mending msg state ∧ st ≠ .running msg state) (hP : P m)
    (h : WorkerState.step config p (calm setup none .failed) m.world st = some (st', w'))
    (hrest : Passes setup config p P { m with world := w', worker := st', runner := .outside } m') :
    Passes setup config p P m m' := by
  refine .next hP ?_ hrest
  unfold step
  rw [hm]
  split
  · exact absurd rfl (hplain _ _).1
  · exact absurd rfl (hplain _ _).2
  · unfold work
    rw [hm, h]
    rfl

theorem release_db (w : World) (key : String) (p : ℕ) : (w.release key p).db = w.db := by
  unfold World.release
  split
  · rfl
  · rfl

theorem release_stream (w : World) (key : String) (p : ℕ) : (w.release key p).stream = w.stream := by
  unfold World.release
  split
  · rfl
  · rfl

variable (setup config p)

theorem releasing_passes {result : Option WorkerProcessResult} (hm : m.worker = .releasing msg result)
    (hP : ∀ m', m.Keeps m' → P m') :
    ∃ m', Passes setup config p P m m' ∧ (∃ result', m'.worker = .done result') ∧ m.Keeps m' := by
  have hdb := release_db m.world msg.task.idempotencyKey p
  have hstream := release_stream m.world msg.task.idempotencyKey p
  refine ⟨⟨m.world.release msg.task.idempotencyKey p, m.records,
    .done (result.map (WorkerState.complete config msg)), .outside⟩, ?_, ⟨_, rfl⟩, hdb, hstream, rfl⟩
  exact .plain _ _ hm (fun _ _ => by simp) (hP m ⟨rfl, rfl, rfl⟩)
    (by simp [WorkerState.step, calm]) (.here (hP _ ⟨hdb, hstream, rfl⟩))

theorem publishing_passes (hm : m.worker = .publishing msg path) (hlocked : path.locked = true)
    (hclosed : ∃ r d as, Shows msg.task m.world.db path.status r d as ∧ r.row.status = .terminal)
    (hpending : m.world.stream msg.messageId = some ⟨msg.task, .pending n⟩)
    (hP : ∀ m', Closed msg n path.status m' → P m') :
    ∃ m', Passes setup config p P m m' ∧ (∃ result, m'.worker = .done result) ∧
      Completed msg.messageId msg.task path.status m' := by
  let acked : World := { m.world with
    stream := Function.update m.world.stream msg.messageId (some ⟨msg.task, .acknowledged⟩) }
  let result := WorkerState.acknowledged msg path true
  have hack : m.world.ack msg.messageId = (true, acked) := by
    unfold World.ack
    rw [hpending]
  have hacked : acked.stream msg.messageId = some ⟨msg.task, .acknowledged⟩ :=
    Function.update_self _ _ _
  have hstep : WorkerState.step config p (calm setup none .failed) m.world (.acking msg path) =
      some (.releasing msg (some result), acked) := by
    cases path with
    | deadLetter count => cases hlocked
    | _ => simp [WorkerState.step, calm, hack, result]
  have hpasses : Passes setup config p P m
      ⟨acked, m.records, .releasing msg (some result), .outside⟩ := by
    refine .plain (.handling msg path) m.world hm (fun _ _ => by simp)
      (hP _ ⟨hclosed, Or.inl hpending⟩) (by simp [WorkerState.step, calm]) ?_
    refine .plain (.acking msg path) m.world rfl (fun _ _ => by simp)
      (hP _ ⟨hclosed, Or.inl hpending⟩) (by simp [WorkerState.step, calm]) ?_
    exact .plain (.releasing msg (some result)) acked rfl (fun _ _ => by simp)
      (hP _ ⟨hclosed, Or.inl hpending⟩) hstep (.here (hP _ ⟨hclosed, Or.inr hacked⟩))
  obtain ⟨m', hend, hdone, hdb, hstream, -⟩ := releasing_passes setup config p (P := P)
    (m := ⟨acked, m.records, .releasing msg (some result), .outside⟩) rfl fun m' hkeeps =>
      hP m' ⟨by rw [hkeeps.db]; exact hclosed, Or.inr (by rw [hkeeps.stream]; exact hacked)⟩
  obtain ⟨r, d, as, hshows, hterminal⟩ := hclosed
  refine ⟨m', hpasses.trans hend, hdone, ?_, ?_, ?_⟩
  · rw [hdb]
    exact hshows.status_eq
  · rw [hdb]
    exact Db.terminated_iff.mpr ⟨r, hshows.thread, hterminal⟩
  · rw [hstream]
    exact hacked

theorem closing_passes (hm : m.worker = .looking msg path) (hlocked : path.locked = true)
    (h : Held msg n m rs status r d as) (hreplay : path.unrecorded = false → status = path.status)
    (hheld : ∀ m' r', Marked r r' → Held msg n m' rs status r' d as → P m')
    (hclosed : ∀ m', Closed msg n path.status m' → P m') :
    ∃ m', Passes setup config p P m m' ∧ (∃ result, m'.worker = .done result) ∧
      Completed msg.messageId msg.task path.status m' := by
  obtain ⟨r', hmark⟩ : ∃ r', r.markTerminal ("terminal:" ++ path.status.text) config.consumerName
      r.row.currentNode path.errorCode setup.now true = .ok r' := by
    unfold ThreadRecord.markTerminal
    split
    · exact ⟨_, rfl⟩
    · exact ⟨_, rfl⟩
  obtain ⟨hterminal, hhonest⟩ := mark_honest h.honest hmark
  have hmarked := Marked.of_markTerminal hmark
  have hshows' := h.shows.setThread r'
  have hterminate : WorkerState.step config p (calm setup none .failed) m.world
      (.terminating msg path r.row.currentNode) =
        some (WorkerState.afterTerminal msg path, m.world.setThread msg.task.taskId r') := by
    show some (WorkerState.terminate _ _ _ _ _ _) = _
    unfold WorkerState.terminate
    rw [h.shows.thread]
    simp [calm, hmark]
  have hpasses : Passes setup config p P m ⟨m.world.setThread msg.task.taskId r', m.records,
      WorkerState.afterTerminal msg path, .outside⟩ := by
    refine .plain (.terminating msg path r.row.currentNode) m.world hm (fun _ _ => by simp)
      (hheld _ r (Or.inl rfl) h) ?_ ?_
    · simp [WorkerState.step, calm, h.shows.thread]
    · exact .plain _ _ rfl (fun _ _ => by simp)
        (hheld _ r (Or.inl rfl) ⟨h.shows, h.stream, h.records, h.honest⟩) hterminate
        (.here (hheld _ r' hmarked ⟨hshows', h.stream, h.records, hhonest⟩))
  cases hrecorded : path.unrecorded with
  | false =>
    have hafter : WorkerState.afterTerminal msg path = .publishing msg path := by
      cases path with
      | replay status => rfl
      | deadLetter count => cases hlocked
      | _ => cases hrecorded
    rw [hafter] at hpasses
    rw [hreplay hrecorded] at hshows'
    obtain ⟨m', hend, hdone, hcompleted⟩ := publishing_passes setup config p
      (m := ⟨m.world.setThread msg.task.taskId r', m.records, .publishing msg path, .outside⟩)
      rfl hlocked ⟨r', d, as, hshows', hterminal⟩ h.stream hclosed
    exact ⟨m', hpasses.trans hend, hdone, hcompleted⟩
  | true =>
    obtain ⟨db', hset, hshows''⟩ := hshows'.setStatus path.status false true setup.now
    have hafter : WorkerState.afterTerminal msg path = .recording msg path ∧
        WorkerState.afterRecord msg path = .publishing msg path := by
      cases path with
      | replay status => cases hrecorded
      | deadLetter count => cases hlocked
      | _ => exact ⟨rfl, rfl⟩
    rw [hafter.1] at hpasses
    have hrecord : WorkerState.step config p (calm setup none .failed)
        (m.world.setThread msg.task.taskId r') (.recording msg path) =
          some (.publishing msg path,
            { m.world.setThread msg.task.taskId r' with db := db' }) := by
      rw [← hafter.2]
      simp [WorkerState.step, calm, Db.markTerminal, hset]
    obtain ⟨m', hend, hdone, hcompleted⟩ := publishing_passes setup config p
      (m := ⟨{ m.world.setThread msg.task.taskId r' with db := db' }, m.records,
        .publishing msg path, .outside⟩)
      rfl hlocked ⟨r', d, as, hshows'', hterminal⟩ h.stream hclosed
    exact ⟨m', hpasses.trans (.plain _ _ rfl (fun _ _ => by simp)
      (hheld _ r' hmarked ⟨hshows', h.stream, h.records, hhonest⟩) hrecord hend), hdone, hcompleted⟩

/-! ### One node -/

variable {state : IdempotencyState}

theorem step_running (hm : m.worker = .running msg state) (hr : m.world.db.threads msg.task.taskId = some r) :
    m.step setup config p = m.advance setup config p msg r := by
  unfold step
  rw [hm]
  dsimp only
  rw [hr]

theorem call_running (hm : m.worker = .running msg state) (graph : GraphStep) (runner : RunnerState)
    {st' : WorkerState} {w' : World}
    (h : WorkerState.graphStep config msg state (calm setup none graph) m.world = (st', w')) :
    m.call setup config p graph runner = some ⟨w', m.records, st', runner⟩ := by
  unfold call work
  rw [hm]
  show (some (WorkerState.graphStep config msg state (calm setup none graph) m.world)).map _ = _
  rw [h]
  rfl

theorem call_thread (hm : m.worker = .running msg state) (hr : m.world.db.threads msg.task.taskId = some r)
    {op : ThreadOp} (hop : op.run config.consumerName true r = .ok r') (runner : RunnerState) :
    m.call setup config p (.thread op) runner =
      some ⟨m.world.setThread msg.task.taskId r', m.records, .running msg state, runner⟩ := by
  refine call_running setup config p hm _ _ ?_
  unfold WorkerState.graphStep
  dsimp only [calm]
  rw [hr]
  simp [hop]

theorem broken_eq (hm : m.worker = .running msg state) : m.broken setup config p =
    some ⟨m.world, m.records, .releasing msg (some (WorkerState.unacknowledged msg (some "FAILED")
      (some "GRAPH_EXECUTION_ERROR") (some state))), .outside⟩ :=
  call_running setup config p hm _ _ rfl

end Machine

theorem Agents.merge_count (agents : Agents) {s : State} {z : ℤ} (h : s.get "completed_node_count" = .int z)
    (node : String) : (s.merge (agents.instrumented node s)).get "completed_node_count" = .int (z + 1) := by
  have hcount : Agents.completedNodeCount s = z := by
    unfold Agents.completedNodeCount
    rw [h]
  rw [← hcount]
  exact State.get_merge_of_lookup (agents.instrumented_count node s)

def Agents.proposed (agents : Agents) (task : DispatchTaskMessage) : Option Dispatch :=
  (agents.proposal (agents.stateAt 6)).map fun entry => ⟨entry.1, task.taskId, entry.2, 1⟩

def Agents.audited (agents : Agents) (task : DispatchTaskMessage) (d : Option Dispatch) :
    List AuditRecord :=
  (d.map fun dispatch => ⟨agents.auditId, task.taskId, dispatch.id, agents.verdict (agents.stateAt 7),
    agents.reason (agents.stateAt 7)⟩).toList

/-- The proposal there is after a node. -/
def Agents.dispatchAfter (agents : Agents) (task : DispatchTaskMessage) (k : ℕ) (d : Option Dispatch) :
    Option Dispatch :=
  if k = 6 then d <|> agents.proposed task else d

def Agents.auditsAfter (agents : Agents) (task : DispatchTaskMessage) (k : ℕ) (d : Option Dispatch)
    (as : List AuditRecord) : List AuditRecord :=
  if k = 7 then agents.audited task d else as

theorem Agents.merge_error (agents : Agents) {result : State}
    (h : result.get "error_code" ≠ .str "AUDIT_PERSISTENCE_ERROR") (node : String) (s : State) :
    (result.merge (agents.instrumented node s)).get "error_code" ≠ .str "AUDIT_PERSISTENCE_ERROR" := by
  rw [State.get_merge]
  split
  · unfold Agents.instrumented
    rw [State.get_merge]
    exact agents.nodePatch_error node s
  · exact h

def Agents.outcome (agents : Agents) : Option TaskStatus :=
  match agents.verdict (agents.stateAt 7) with
  | .approved => some .approved
  | .reviewRequired => if agents.manualReview (agents.stateAt 7) then some .reviewRequired else none
  | .rejected => none

theorem Agents.outcome_verdict {agents : Agents} {status : TaskStatus} (h : agents.outcome = some status) :
    (agents.verdict (agents.stateAt 7)).status = status ∧ status.terminal = true ∧
      (agents.verdict (agents.stateAt 7) = .approved ∨
        agents.verdict (agents.stateAt 7) = .reviewRequired) := by
  unfold Agents.outcome at h
  cases hverdict : agents.verdict (agents.stateAt 7) with
  | approved =>
    rw [hverdict] at h
    cases h
    exact ⟨rfl, rfl, Or.inl rfl⟩
  | reviewRequired =>
    rw [hverdict] at h
    cases hmanual : agents.manualReview (agents.stateAt 7) with
    | true =>
      rw [hmanual] at h
      cases h
      exact ⟨rfl, rfl, Or.inr rfl⟩
    | false =>
      rw [hmanual] at h
      cases h
  | rejected =>
    rw [hverdict] at h
    cases h

theorem Agents.instrumented_audit (agents : Agents) (s : State) :
    List.lookup "audit_result" (agents.instrumented (nodeAt 7) s) =
        some (.dict [("audit_status", .str (agents.verdict s).status.text)]) ∧
      List.lookup "requires_manual_review" (agents.instrumented (nodeAt 7) s) =
        some (.bool (agents.manualReview s)) :=
  ⟨rfl, rfl⟩

theorem Agents.terminalState_audited (agents : Agents) {result : State}
    (h : result.get "error_code" ≠ .str "AUDIT_PERSISTENCE_ERROR") :
    (terminalState (Agents.finalState
      (result.merge (agents.instrumented (nodeAt 7) (agents.stateAt 7))))).1 = agents.outcome := by
  have hstatus : (result.merge (agents.instrumented (nodeAt 7) (agents.stateAt 7))).get
      "audit_result" = .dict [("audit_status", .str (agents.verdict (agents.stateAt 7)).status.text)] :=
    State.get_merge_of_lookup (agents.instrumented_audit _).1
  have hmanual : (result.merge (agents.instrumented (nodeAt 7) (agents.stateAt 7))).get
      "requires_manual_review" = .bool (agents.manualReview (agents.stateAt 7)) :=
    State.get_merge_of_lookup (agents.instrumented_audit _).2
  have herror : (Agents.finalState (result.merge
      (agents.instrumented (nodeAt 7) (agents.stateAt 7)))).errorCode ≠
        some "AUDIT_PERSISTENCE_ERROR" := by
    intro hcode
    refine agents.merge_error h (nodeAt 7) (agents.stateAt 7) ?_
    unfold Agents.finalState at hcode
    dsimp only at hcode
    split at hcode
    · rename_i code hget
      rw [hget, Option.some.inj hcode]
    · cases hcode
  have haudit : (Agents.finalState (result.merge
      (agents.instrumented (nodeAt 7) (agents.stateAt 7)))).auditStatus =
        some (agents.verdict (agents.stateAt 7)).status.text := by
    unfold Agents.finalState
    dsimp only
    rw [hstatus]
    rfl
  have hreview : (Agents.finalState (result.merge
      (agents.instrumented (nodeAt 7) (agents.stateAt 7)))).requiresManualReview =
        agents.manualReview (agents.stateAt 7) := by
    unfold Agents.finalState
    dsimp only
    rw [hmanual]
    cases agents.manualReview (agents.stateAt 7)
    · rfl
    · rfl
  unfold terminalState Agents.outcome
  rw [if_neg herror, haudit, hreview]
  cases agents.verdict (agents.stateAt 7) with
  | approved => rfl
  | rejected => rfl
  | reviewRequired =>
    cases agents.manualReview (agents.stateAt 7)
    · rfl
    · rfl

theorem nodeAt_dispatch {k : ℕ} (hk : k < 8) : nodeAt k = "dispatch" ↔ k = 6 := by
  revert k
  decide

theorem nodeAt_audit {k : ℕ} (hk : k < 8) : nodeAt k = "audit" ↔ k = 7 := by
  revert k
  decide

theorem nodeOrder_drop {k : ℕ} (hk : k < 8) : nodeOrder.drop k = nodeAt k :: nodeOrder.drop (k + 1) := by
  revert k
  decide

/-- The runner stands before a node. -/
structure Ready (setup : Setup) (msg : StreamMessage) (n : ℕ) (m : Machine) (state : IdempotencyState)
    (k : ℕ) (rs : List CheckpointRecord) (current : Option ℕ) (status : TaskStatus) (r : ThreadRecord)
    (d : Option Dispatch) (as : List AuditRecord) (pos : Position) : Prop where
  worker : m.worker = .running msg state
  runner : m.runner = .ready pos
  held : Held msg n m rs status r d as
  waits : Waits setup.agents r.row.threadId k current rs.length r
  numbered : Numbered setup.agents rs
  follows : Follows setup.agents r.row.threadId current (some pos.parent) rs
  short : current = none → rs.length < boundaryListing
  place : pos.state = setup.agents.stateAt k
  rest : pos.rest = nodeOrder.drop k
  result : pos.result.get "error_code" ≠ .str "AUDIT_PERSISTENCE_ERROR"

variable {node : String} {parent : Option String} {final : FinalState} {T : TaskStatus}

namespace Machine

variable (setup : Setup) (config : WorkerConfig) (p : ℕ) {msg : StreamMessage} {n : ℕ}
  {P : Machine → Prop} {m : Machine} {rs : List CheckpointRecord} {status : TaskStatus}
  {r : ThreadRecord} {d : Option Dispatch} {as : List AuditRecord} {state : IdempotencyState} {k : ℕ}
  {current : Option ℕ} {pos : Position}

/-- What is left after a node was executed. -/
def executedAt (k : ℕ) (pos : Position) : Position where
  state := setup.agents.stateAt (k + 1)
  parent := pos.parent
  rest := nodeOrder.drop (k + 1)
  resume := pos.resume
  result := pos.result.merge (setup.agents.instrumented (nodeAt k) (setup.agents.stateAt k))

/-- A ready runner executes its node. -/
theorem execute_eq (hk : k < 8) (h : Ready setup msg n m state k rs current status r d [] pos) :
    ∃ m', m.step setup config p = some m' ∧ m'.worker = .running msg state ∧
      m'.runner = .executed (nodeAt k) (executedAt setup k pos) ∧
      Held msg n m' rs status r (setup.agents.dispatchAfter msg.task k d)
        (setup.agents.auditsAfter msg.task k d []) := by
  have hstep : m.step setup config p =
      m.execute setup config p (nodeAt k) { pos with rest := nodeOrder.drop (k + 1) } := by
    rw [step_running setup config p h.worker h.held.shows.thread]
    unfold advance
    rw [h.runner]
    dsimp only
    rw [h.rest, nodeOrder_drop hk]
  have hdone : RunnerState.executed (nodeAt k) { pos with
        rest := nodeOrder.drop (k + 1)
        state := pos.state.merge (setup.agents.instrumented (nodeAt k) pos.state)
        result := pos.result.merge (setup.agents.instrumented (nodeAt k) pos.state) } =
      .executed (nodeAt k) (executedAt setup k pos) := by
    rw [h.place]
    rfl
  rw [hstep]
  unfold execute
  dsimp only
  rw [hdone]
  by_cases hdispatch : k = 6
  · subst hdispatch
    rw [if_pos ((nodeAt_dispatch hk).mpr rfl), h.place]
    cases hproposal : setup.agents.proposal (setup.agents.stateAt 6) with
    | none =>
      refine ⟨_, rfl, h.worker, rfl, ?_⟩
      have hsame : setup.agents.dispatchAfter msg.task 6 d = d := by
        show (d <|> setup.agents.proposed msg.task) = d
        unfold Agents.proposed
        rw [hproposal]
        cases d <;> rfl
      rw [hsame]
      exact ⟨h.held.shows, h.held.stream, h.held.records, h.held.honest⟩
    | some entry =>
      obtain ⟨id, st⟩ := entry
      refine ⟨_, call_running setup config p h.worker _ _ rfl, rfl, rfl, ?_⟩
      have hsame : setup.agents.dispatchAfter msg.task 6 d =
          (d <|> some ⟨id, msg.task.taskId, st, 1⟩) := by
        show (d <|> setup.agents.proposed msg.task) = _
        unfold Agents.proposed
        rw [hproposal]
        rfl
      rw [hsame]
      exact ⟨h.held.shows.executeDispatch id st, h.held.stream, h.held.records, h.held.honest⟩
  · rw [if_neg (fun hnode => hdispatch ((nodeAt_dispatch hk).mp hnode))]
    have hd : setup.agents.dispatchAfter msg.task k d = d := if_neg hdispatch
    rw [hd]
    by_cases haudit : k = 7
    · subst haudit
      rw [if_pos ((nodeAt_audit hk).mpr rfl), h.place]
      refine ⟨_, call_running setup config p h.worker _ _ rfl, rfl, rfl, ?_⟩
      refine ⟨?_, h.held.stream, h.held.records, h.held.honest⟩
      show Shows msg.task (m.world.db.persistAudit _ _ _ _) status r d
        (setup.agents.audited msg.task d)
      have hshows := h.held.shows
      cases d with
      | none => exact hshows.persistAudit_none _ _ _
      | some dispatch => exact hshows.persistAudit_some _ _ _
    · rw [if_neg (fun hnode => haudit ((nodeAt_audit hk).mp hnode))]
      refine ⟨_, rfl, h.worker, rfl, ?_⟩
      have has : setup.agents.auditsAfter msg.task k d [] = [] := if_neg haudit
      rw [has]
      exact ⟨h.held.shows, h.held.stream, h.held.records, h.held.honest⟩

theorem execute_plain {rest : List String} (hm : m.worker = .running msg state)
    (hrunner : m.runner = .ready pos) (hrest : pos.rest = node :: rest) (hdispatch : node ≠ "dispatch")
    (haudit : node ≠ "audit") (h : Held msg n m rs status r d as) :
    ∃ m', m.step setup config p = some m' ∧ m'.worker = .running msg state ∧
      m'.runner = .executed node { pos with
        rest := rest
        state := pos.state.merge (setup.agents.instrumented node pos.state)
        result := pos.result.merge (setup.agents.instrumented node pos.state) } ∧
      Held msg n m' rs status r d as := by
  refine ⟨{ m with runner := .executed node { pos with
    rest := rest
    state := pos.state.merge (setup.agents.instrumented node pos.state)
    result := pos.result.merge (setup.agents.instrumented node pos.state) } }, ?_, hm, rfl,
    ⟨h.shows, h.stream, h.records, h.honest⟩⟩
  rw [step_running setup config p hm h.shows.thread]
  unfold advance
  rw [hrunner]
  dsimp only
  rw [hrest]
  unfold execute
  dsimp only
  rw [if_neg hdispatch, if_neg haudit]

theorem save_eq (hm : m.worker = .running msg state) (hrunner : m.runner = .executed node pos)
    (h : Held msg n m rs status r d as) :
    ∃ m', m.step setup config p = some m' ∧ m'.worker = .running msg state ∧
      m'.runner = .saved node { pos with parent := setup.agents.ids rs.length } ∧
      Held msg n m' (numbered setup.agents r.row.threadId rs.length (some pos.parent) pos.state :: rs)
        status r d as := by
  refine ⟨m.save setup.agents r.row.threadId (some pos.parent) pos.state (.saved node { pos with
    parent := setup.agents.ids m.records.length }), ?_, hm, ?_, h.shows, h.stream, ?_, h.honest⟩
  · rw [step_running setup config p hm h.shows.thread]
    unfold advance
    rw [hrunner]
  · rw [← h.records]
    rfl
  · rw [← h.records]
    rfl

theorem mark_eq {key : String} {bound : ℕ} (hm : m.worker = .running msg state)
    (hrunner : m.runner = .saved node pos) (hresume : pos.resume = some key)
    (h : Held msg n m rs status r d as) (hwaits : Waits setup.agents r.row.threadId k current bound r) :
    ∃ m' r', m.step setup config p = some m' ∧ m'.worker = .running msg state ∧
      m'.runner = .saved node { pos with resume := none } ∧ Held msg n m' rs status r' d as ∧
      r'.row.threadId = r.row.threadId ∧
      Waits setup.agents r.row.threadId k current bound r' := by
  obtain ⟨r', hmark, hwaits'⟩ := hwaits.markResumed key config.consumerName
  refine ⟨⟨m.world.setThread msg.task.taskId r', m.records, .running msg state,
    .saved node { pos with resume := none }⟩, r', ?_, rfl, rfl,
    ⟨h.shows.setThread r', h.stream, h.records, hwaits'.honest⟩, hwaits'.owner, hwaits'⟩
  rw [step_running setup config p hm h.shows.thread]
  unfold advance
  rw [hrunner]
  dsimp only
  unfold update
  rw [hresume]
  have hrun : (ThreadOp.resumed key).run config.consumerName true r = .ok r' := hmark
  exact call_thread setup config p hm h.shows.thread hrun _

theorem promote_eq (hk : k < 8) (hm : m.worker = .running msg state)
    (hrunner : m.runner = .saved (nodeAt k) pos) (hresume : pos.resume = none)
    (h : Held msg n m (numbered setup.agents r.row.threadId rs.length parent
      (setup.agents.stateAt (k + 1)) :: rs) status r d as)
    (hwaits : Waits setup.agents r.row.threadId k current rs.length r)
    (hfollows : Follows setup.agents r.row.threadId current parent rs) (hnumbered : Numbered setup.agents rs)
    (hshort : current = none → rs.length < boundaryListing)
    (hfits : setup.Fits (setup.agents.stateAt (k + 1))) :
    ∃ m' r', m.step setup config p = some m' ∧ m'.worker = .running msg state ∧
      m'.runner = .ready pos ∧
      Held msg n m' (numbered setup.agents r.row.threadId rs.length parent
        (setup.agents.stateAt (k + 1)) :: rs) status r' d as ∧
      Waits setup.agents r.row.threadId (k + 1) (some rs.length) (rs.length + 1) r' := by
  obtain ⟨command, hcommand, r', hpromote, hwaits'⟩ := hwaits.runner_promotes rs.length parent hk
    (Nat.le_refl _) hfits config.consumerName
  have hboundary : latestBoundary r.row (nodeAt k) (m.records.take boundaryListing) = some (numbered
      setup.agents r.row.threadId rs.length parent (setup.agents.stateAt (k + 1))) := by
    rw [h.records]
    exact hwaits.latestBoundary_eq hk hfollows hnumbered hshort
  refine ⟨⟨m.world.setThread msg.task.taskId r', m.records, .running msg state, .ready pos⟩, r', ?_,
    rfl, rfl, ⟨h.shows.setThread r', h.stream, h.records, hwaits'.honest⟩, hwaits'⟩
  rw [step_running setup config p hm h.shows.thread]
  unfold advance
  rw [hrunner]
  dsimp only
  unfold update
  rw [hresume]
  dsimp only
  rw [hboundary]
  dsimp only
  rw [hcommand]
  exact call_thread setup config p hm h.shows.thread hpromote _

theorem promote_broken (hk : k < 8) (hm : m.worker = .running msg state)
    (hrunner : m.runner = .saved (nodeAt k) pos) (hresume : pos.resume = none)
    (h : Held msg n m (numbered setup.agents r.row.threadId rs.length parent
      (setup.agents.stateAt (k + 1)) :: rs) status r d as)
    (hwaits : Waits setup.agents r.row.threadId k current rs.length r)
    (hfollows : Follows setup.agents r.row.threadId current parent rs) (hnumbered : Numbered setup.agents rs)
    (hshort : current = none → rs.length < boundaryListing)
    (hfits : ¬ setup.Fits (setup.agents.stateAt (k + 1))) :
    m.step setup config p = m.broken setup config p := by
  obtain ⟨code, hcode⟩ := promotionCommand_not_fits hfits r.row r.row.threadId rs.length parent
    (nodeAt k) config.consumerName ("checkpoint:" ++ setup.agents.ids rs.length) .checkpointPromoted
  rw [step_running setup config p hm h.shows.thread]
  unfold advance
  rw [hrunner]
  dsimp only
  unfold update
  rw [hresume, h.records, hwaits.latestBoundary_eq hk hfollows hnumbered hshort]
  dsimp only
  unfold runnerCommand
  rw [show promotionCommand _ _ _ _ _ ("checkpoint:" ++ (numbered setup.agents r.row.threadId rs.length
    parent (setup.agents.stateAt (k + 1))).checkpointId) _ = _ from hcode]

theorem saving_passes (hk : k < 8) (h : Ready setup msg n m state k rs current status r d [] pos) (hP : P m)
    (hexecuted : ∀ m', Held msg n m' rs status r (setup.agents.dispatchAfter msg.task k d)
      (setup.agents.auditsAfter msg.task k d []) → P m')
    (hsaved : ∀ m' r', Waits setup.agents r.row.threadId k current rs.length r' →
      Held msg n m' (numbered setup.agents r.row.threadId rs.length (some pos.parent)
        (setup.agents.stateAt (k + 1)) :: rs) status r' (setup.agents.dispatchAfter msg.task k d)
        (setup.agents.auditsAfter msg.task k d []) → P m') :
    ∃ m' r', Passes setup config p P m m' ∧ m'.worker = .running msg state ∧
      m'.runner = .saved (nodeAt k) { executedAt setup k pos with
        parent := setup.agents.ids rs.length, resume := none } ∧
      Held msg n m' (numbered setup.agents r.row.threadId rs.length (some pos.parent)
        (setup.agents.stateAt (k + 1)) :: rs) status r' (setup.agents.dispatchAfter msg.task k d)
        (setup.agents.auditsAfter msg.task k d []) ∧
      r'.row.threadId = r.row.threadId ∧ Waits setup.agents r.row.threadId k current rs.length r' := by
  obtain ⟨m₁, hstep₁, hw₁, hr₁, hheld₁⟩ := execute_eq setup config p hk h
  obtain ⟨m₂, hstep₂, hw₂, hr₂, hheld₂⟩ := save_eq setup config p hw₁ hr₁ hheld₁
  have hpasses : Passes setup config p P m m₂ := .next hP hstep₁
    (.one (hexecuted m₁ hheld₁) hstep₂ (hsaved m₂ r h.waits hheld₂))
  cases hresume : pos.resume with
  | none =>
    have hpos : (executedAt setup k pos).resume = none := hresume
    rw [← hpos]
    exact ⟨m₂, r, hpasses, hw₂, hr₂, hheld₂, rfl, h.waits⟩
  | some key =>
    obtain ⟨m₃, r', hstep₃, hw₃, hr₃, hheld₃, hthread, hwaits⟩ :=
      mark_eq setup config p hw₂ hr₂ hresume hheld₂ h.waits
    exact ⟨m₃, r', hpasses.trans (.one (hsaved m₂ r h.waits hheld₂) hstep₃
      (hsaved m₃ r' hwaits hheld₃)), hw₃, hr₃, hheld₃, hthread, hwaits⟩

theorem node_passes (hk : k < 8) (h : Ready setup msg n m state k rs current status r d [] pos)
    (hfits : setup.Fits (setup.agents.stateAt (k + 1))) (hP : P m)
    (hexecuted : ∀ m', Held msg n m' rs status r (setup.agents.dispatchAfter msg.task k d)
      (setup.agents.auditsAfter msg.task k d []) → P m')
    (hsaved : ∀ m' r', Waits setup.agents r.row.threadId k current rs.length r' →
      Held msg n m' (numbered setup.agents r.row.threadId rs.length (some pos.parent)
        (setup.agents.stateAt (k + 1)) :: rs) status r' (setup.agents.dispatchAfter msg.task k d)
        (setup.agents.auditsAfter msg.task k d []) → P m')
    (hpromoted : ∀ m' r',
      Waits setup.agents r.row.threadId (k + 1) (some rs.length) (rs.length + 1) r' →
      Held msg n m' (numbered setup.agents r.row.threadId rs.length (some pos.parent)
        (setup.agents.stateAt (k + 1)) :: rs) status r' (setup.agents.dispatchAfter msg.task k d)
        (setup.agents.auditsAfter msg.task k d []) → P m') :
    ∃ m' r' pos', Passes setup config p P m m' ∧
      Ready setup msg n m' state (k + 1) (numbered setup.agents r.row.threadId rs.length
        (some pos.parent) (setup.agents.stateAt (k + 1)) :: rs) (some rs.length) status r'
        (setup.agents.dispatchAfter msg.task k d) (setup.agents.auditsAfter msg.task k d []) pos' ∧
      r'.row.threadId = r.row.threadId ∧ pos'.parent = setup.agents.ids rs.length ∧
      pos'.result = pos.result.merge
        (setup.agents.instrumented (nodeAt k) (setup.agents.stateAt k)) := by
  obtain ⟨m₁, r₁, hpasses, hw₁, hr₁, hheld₁, hthread₁, hwaits₁⟩ :=
    saving_passes setup config p hk h hP hexecuted hsaved
  have hheld₁' := hheld₁
  have hwaits₁' := hwaits₁
  have hfollows := h.follows
  rw [← hthread₁] at hheld₁' hwaits₁' hfollows
  obtain ⟨m₂, r₂, hstep, hw₂, hr₂, hheld₂, hwaits₂⟩ := promote_eq setup config p hk hw₁ hr₁ rfl
    hheld₁' hwaits₁' hfollows h.numbered h.short hfits
  rw [hthread₁] at hheld₂ hwaits₂
  have howner := hwaits₂.owner
  refine ⟨m₂, r₂, _, hpasses.trans (.one (hsaved m₁ r₁ hwaits₁ hheld₁) hstep
    (hpromoted m₂ r₂ hwaits₂ hheld₂)), ⟨hw₂, hr₂, hheld₂, ?_, ⟨rfl, h.numbered⟩, ?_, nofun, rfl, rfl,
    ?_⟩, howner, rfl, rfl⟩
  · rw [howner]
    exact hwaits₂
  · rw [howner]
    rfl
  · exact setup.agents.merge_error h.result _ _

/-! ### The end of the graph -/

theorem finish_eq (h : Ready setup msg n m state 8 rs current status r d as pos) :
    m.step setup config p = some ⟨m.world, m.records, WorkerState.afterGraph msg state
      (Agents.finalState pos.result) false (m.world.db.threads msg.task.taskId), .outside⟩ := by
  rw [step_running setup config p h.worker h.held.shows.thread]
  unfold advance
  rw [h.runner]
  dsimp only
  rw [h.rest]
  exact call_running setup config p h.worker _ _ rfl

theorem afterGraph_some (msg : StreamMessage) (state : IdempotencyState)
    (h : (terminalState final).1 = some T) (thread : Option ThreadRecord) : ∃ manualReview errorCode,
      WorkerState.afterGraph msg state final false thread =
        .looking msg (.fresh T state manualReview errorCode) := by
  unfold WorkerState.afterGraph
  split
  · rename_i status manualReview errorCode heq
    rw [heq] at h
    cases h
    exact ⟨manualReview, errorCode, rfl⟩
  · rename_i heq
    rw [heq] at h
    cases h

theorem afterGraph_none (msg : StreamMessage) (state : IdempotencyState) (h : (terminalState final).1 = none)
    (thread : Option ThreadRecord) : ∃ result,
      WorkerState.afterGraph msg state final false thread = .releasing msg result := by
  unfold WorkerState.afterGraph
  split
  · rename_i heq
    rw [heq] at h
    cases h
  · rw [if_neg (by simp)]
    split
    · exact ⟨_, rfl⟩
    · exact ⟨_, rfl⟩

theorem ready_completes (houtcome : setup.agents.outcome = some T)
    (hfits : ∀ k < 8, setup.Fits (setup.agents.stateAt (k + 1))) :
    ∀ (j : ℕ) {k : ℕ} {m : Machine} {rs : List CheckpointRecord} {current : Option ℕ}
      {r : ThreadRecord} {d : Option Dispatch} {pos : Position}, k + j = 7 →
      Ready setup msg n m state k rs current status r d [] pos →
      ∃ m', Passes setup config p (fun _ => True) m m' ∧ (∃ result, m'.worker = .done result) ∧
        Completed msg.messageId msg.task T m' := by
  intro j
  induction j with
  | zero =>
    intro k m rs current r d pos hsum h
    have hseven : k = 7 := hsum
    subst hseven
    obtain ⟨m₁, r₁, pos₁, hpasses, hready, -, -, hresult⟩ := node_passes setup config p (by decide) h
      (hfits 7 (by decide)) trivial (fun _ _ => trivial) (fun _ _ _ _ => trivial)
      fun _ _ _ _ => trivial
    have hfinal := setup.agents.terminalState_audited h.result
    rw [← hresult, houtcome] at hfinal
    obtain ⟨manualReview, errorCode, hlooking⟩ := afterGraph_some msg state
      hfinal (m₁.world.db.threads msg.task.taskId)
    have hfinish := finish_eq setup config p hready
    rw [hlooking] at hfinish
    obtain ⟨m', hend, hdone, hcompleted⟩ := closing_passes setup config p (n := n)
      (P := fun _ => True) (m := ⟨m₁.world, m₁.records,
        .looking msg (.fresh T state manualReview errorCode), .outside⟩) rfl rfl
      ⟨hready.held.shows, hready.held.stream, hready.held.records, hready.held.honest⟩ nofun
      (fun _ _ _ _ => trivial) fun _ _ => trivial
    exact ⟨m', hpasses.trans (.next trivial hfinish hend), hdone, hcompleted⟩
  | succ j ih =>
    intro k m rs current r d pos hsum h
    have hk : k < 7 := by omega
    obtain ⟨m₁, r₁, pos₁, hpasses, hready, -⟩ := node_passes setup config p (by omega) h
      (hfits k (by omega)) trivial (fun _ _ => trivial) (fun _ _ _ _ => trivial)
      fun _ _ _ _ => trivial
    have hnone : setup.agents.auditsAfter msg.task k d [] = [] := if_neg (by omega)
    rw [hnone] at hready
    obtain ⟨m', hend, hdone, hcompleted⟩ := ih (by omega) hready
    exact ⟨m', hpasses.trans hend, hdone, hcompleted⟩

/-! ### The way into the graph -/

theorem acquiring_passes {d : IdempotencyDecision} {db : Db} (hm : m.worker = .acquiring msg)
    (hfree : m.world.locks msg.task.idempotencyKey = none)
    (hbegin : m.world.db.begin msg.task.taskId msg.task.orderId msg.task.idempotencyKey true =
      .ok (d, db))
    (hP : ∀ m', m.Keeps m' → P m')
    (hP' : ∀ m', m'.world.db = db → m'.world.stream = m.world.stream → m'.records = m.records →
      P m') :
    ∃ m', Passes setup config p P m m' ∧ m'.worker = WorkerState.afterBegin msg d ∧
      m'.world.db = db ∧ m'.world.stream = m.world.stream ∧ m'.records = m.records := by
  let held : World :=
    { m.world with locks := Function.update m.world.locks msg.task.idempotencyKey (some p) }
  have hacquire : m.world.acquire msg.task.idempotencyKey p = (true, held) := by
    unfold World.acquire
    rw [hfree]
  refine ⟨⟨{ held with db := db }, m.records, WorkerState.afterBegin msg d, .outside⟩, ?_, rfl, rfl,
    rfl, rfl⟩
  refine .plain (.beginning msg) held hm (fun _ _ => by simp) (hP m ⟨rfl, rfl, rfl⟩)
    (by simp [WorkerState.step, calm, hacquire]) ?_
  refine .plain _ { held with db := db } rfl (fun _ _ => by simp) (hP _ ⟨rfl, rfl, rfl⟩) ?_
    (.here (hP' _ rfl rfl rfl))
  simp [WorkerState.step, calm, held, hbegin]

theorem reconciling_passes (hm : m.worker = .reconciling msg) (h : Held msg n m rs status r d [])
    (hP : ∀ m', m.Keeps m' → P m') :
    ∃ m', Passes setup config p P m m' ∧ m'.worker = .mending msg .inProgress ∧ m.Keeps m' := by
  have hnot := h.shows.reconcile_not_terminal setup.pick
  refine ⟨⟨m.world, m.records, .mending msg .inProgress, .outside⟩, ?_, rfl, ⟨rfl, rfl, rfl⟩⟩
  refine .plain (.loading msg .inProgress) m.world hm (fun _ _ => by simp)
    (hP m ⟨rfl, rfl, rfl⟩) ?_ ?_
  · show some (WorkerState.afterReconcile msg
      (m.world.db.reconcileExistingExecution msg.task.taskId setup.pick), m.world) = _
    unfold WorkerState.afterReconcile
    rw [if_neg (by simp [hnot])]
  · exact .plain _ _ rfl (fun _ _ => by simp) (hP _ ⟨rfl, rfl, rfl⟩)
      (by simp [WorkerState.step, calm]) (.here (hP _ ⟨rfl, rfl, rfl⟩))

theorem mending_passes (hm : m.worker = .mending msg state) (h : Held msg n m rs status r d as)
    (hlive : r.row.status ≠ .terminal) (hnext : r.row.nextNode ≠ none)
    (hnone : reconcileCandidate setup.runtime r.row (rs.take setup.runtime.scanLimit)
      config.consumerName = .ok none) :
    m.step setup config p = some ⟨m.world, m.records, .running msg state, .outside⟩ := by
  unfold step
  rw [hm]
  dsimp only
  unfold mend
  rw [h.shows.thread]
  dsimp only
  rw [if_neg (by simp [hlive, hnext]), h.records, hnone]
  unfold work
  rw [hm]
  simp [WorkerState.step, calm, h.records]

theorem mending_promotes {command : PromoteCheckpoint} (hm : m.worker = .mending msg state)
    (h : Held msg n m rs status r d as) (hlive : r.row.status ≠ .terminal) (hnext : r.row.nextNode ≠ none)
    (hone : reconcileCandidate setup.runtime r.row (rs.take setup.runtime.scanLimit)
      config.consumerName = .ok (some command))
    (hrun : (ThreadOp.reconcile command).run config.consumerName true r = .ok r') :
    m.step setup config p = some ⟨m.world.setThread msg.task.taskId r', m.records,
      .running msg state, .outside⟩ := by
  unfold step
  rw [hm]
  dsimp only
  unfold mend
  rw [h.shows.thread]
  dsimp only
  rw [if_neg (by simp [hlive, hnext]), h.records, hone]
  unfold work
  rw [hm]
  simp [WorkerState.step, calm, h.records, h.shows.thread, hrun]

theorem feeding_passes (hm : m.worker = .running msg state) (hrunner : m.runner = .outside)
    (h : Held msg n m rs status r d as) (hcurrent : r.row.currentCheckpointId = none)
    (hP : ∀ m', m.Keeps m' → P m')
    (hopened : ∀ m', Held msg n m' (numbered setup.agents r.row.threadId rs.length
      (rs.head?.map CheckpointRecord.checkpointId) m.latest :: rs) status r d as → P m')
    (hfed : ∀ m', Held msg n m' (numbered setup.agents r.row.threadId (rs.length + 1)
      (some (setup.agents.ids rs.length)) (m.latest.merge setup.agents.input) ::
        numbered setup.agents r.row.threadId rs.length
          (rs.head?.map CheckpointRecord.checkpointId) m.latest :: rs) status r d as → P m') :
    ∃ m', Passes setup config p P m m' ∧ m'.worker = .running msg state ∧
      m'.runner = .ready ⟨m.latest.merge setup.agents.input, setup.agents.ids (rs.length + 1),
        nodeOrder, none, setup.agents.input⟩ ∧
      Held msg n m' (numbered setup.agents r.row.threadId (rs.length + 1)
        (some (setup.agents.ids rs.length)) (m.latest.merge setup.agents.input) ::
          numbered setup.agents r.row.threadId rs.length
            (rs.head?.map CheckpointRecord.checkpointId) m.latest :: rs) status r d as := by
  obtain rfl := h.records
  let opened := m.save setup.agents r.row.threadId
    (m.records.head?.map CheckpointRecord.checkpointId) m.latest .feeding
  let fed := opened.save setup.agents r.row.threadId
    (some (setup.agents.ids m.records.length)) (m.latest.merge setup.agents.input)
    (.ready ⟨m.latest.merge setup.agents.input, setup.agents.ids (m.records.length + 1), nodeOrder,
      none, setup.agents.input⟩)
  have hheld : Held msg n opened _ status r d as := ⟨h.shows, h.stream, rfl, h.honest⟩
  have hheld' : Held msg n fed _ status r d as := ⟨h.shows, h.stream, rfl, h.honest⟩
  have henter : m.step setup config p = some { m with runner := .opening } := by
    rw [step_running setup config p hm h.shows.thread]
    unfold advance
    rw [hrunner]
    dsimp only
    unfold enter
    rw [hcurrent]
  have hopen : step setup config p { m with runner := .opening } = some opened := by
    rw [step_running setup config p (m := { m with runner := .opening }) hm h.shows.thread]
    rfl
  have hfeed : opened.step setup config p = some fed := by
    rw [step_running setup config p (m := opened) hm h.shows.thread]
    rfl
  exact ⟨fed, .next (hP m ⟨rfl, rfl, rfl⟩) henter (.next (hP _ ⟨rfl, rfl, rfl⟩) hopen
    (.one (hopened _ hheld) hfeed (hfed _ hheld'))), hm, rfl, hheld'⟩

theorem opening_passes (hm : m.worker = .running msg state) (hrunner : m.runner = .outside)
    (h : Held msg n m rs status r d as) (hwaits : Waits setup.agents r.row.threadId 0 none 2 r)
    (hnumbered : Numbered setup.agents rs) (hrooted : Rooted r.row.threadId rs)
    (hstates : ∀ record ∈ rs, record.state = [] ∨ record.state = setup.agents.input) (hshort : rs.length ≤ 2)
    (hP : ∀ m', m.Keeps m' → P m')
    (hopened : ∀ m', Held msg n m' (numbered setup.agents r.row.threadId rs.length
      (rs.head?.map CheckpointRecord.checkpointId) m.latest :: rs) status r d as → P m')
    (hfed : ∀ m', Held msg n m' (numbered setup.agents r.row.threadId (rs.length + 1)
      (some (setup.agents.ids rs.length)) setup.agents.input ::
        numbered setup.agents r.row.threadId rs.length
          (rs.head?.map CheckpointRecord.checkpointId) m.latest :: rs) status r d as → P m') :
    ∃ m' pos, Passes setup config p P m m' ∧ Ready setup msg n m' state 0
      (numbered setup.agents r.row.threadId (rs.length + 1) (some (setup.agents.ids rs.length))
        setup.agents.input :: numbered setup.agents r.row.threadId rs.length
          (rs.head?.map CheckpointRecord.checkpointId) m.latest :: rs) none status r d as pos ∧
      pos.parent = setup.agents.ids (rs.length + 1) := by
  have hlatest : m.latest = [] ∨ m.latest = setup.agents.input := by
    unfold latest
    rw [h.records]
    cases rs with
    | nil => exact .inl rfl
    | cons record rs => exact hstates record (List.mem_cons_self ..)
  have hmerge : m.latest.merge setup.agents.input = setup.agents.input := by
    rcases hlatest with hlatest | hlatest
    · rw [hlatest]
      rfl
    · rw [hlatest]
      exact State.merge_self _
  have hzero : ∀ s : State, s = [] ∨ s = setup.agents.input → s.get "completed_node_count" = .none := by
    rintro s (rfl | rfl)
    · rfl
    · exact setup.agents.input_zero
  obtain ⟨m', hpasses, hw, hr, hheld⟩ := feeding_passes setup config p hm hrunner h hwaits.canonical
    hP hopened (by rw [hmerge]; exact hfed)
  rw [hmerge] at hr hheld
  refine ⟨m', _, hpasses, ⟨hw, hr, hheld, hwaits.mono (Nat.le_add_left 2 _), ⟨rfl, rfl, hnumbered⟩,
    ⟨?_, rfl⟩, ?_, rfl, rfl, setup.agents.input_error⟩, rfl⟩
  · refine ⟨rfl, rfl, ?_, rfl, rfl, rfl, ?_, rfl, hrooted⟩
    · exact decide_eq_true (Or.inl (hzero _ (Or.inr rfl)))
    · exact decide_eq_true (Or.inl (hzero _ hlatest))
  · intro _
    show rs.length + 1 + 1 < 10
    omega

/-- A worker takes a thread up at its canonical checkpoint. -/
theorem resuming_passes {c : ℕ} (hk : k < 8) (hm : m.worker = .running msg state)
    (hrunner : m.runner = .outside) (h : Held msg n m rs status r d as)
    (hwaits : Waits setup.agents r.row.threadId k (some c) rs.length r) (hnumbered : Numbered setup.agents rs)
    (record : CheckpointRecord) (hrecord : record ∈ rs) (hid : record.checkpointId = setup.agents.ids c)
    (hplace : record.state = setup.agents.stateAt k) (hafter : nodesAfter record.state = nodeOrder.drop k) :
    ∃ m' r' pos, Passes setup config p (fun _ => True) m m' ∧
      Ready setup msg n m' state k rs (some c) status r' d as pos := by
  have hfind : (rs.find? fun record => record.checkpointId = setup.agents.ids c) = some record := by
    cases hfind : rs.find? fun record => record.checkpointId = setup.agents.ids c with
    | none =>
      have hnot := List.find?_eq_none.mp hfind record hrecord
      simp [hid] at hnot
    | some found =>
      have hsame : found.checkpointId = setup.agents.ids c := by simpa using List.find?_some hfind
      rw [hnumbered.unique found (List.mem_of_find?_eq_some hfind) record hrecord
        (hsame.trans hid.symm)]
  -- whether the thread was claimed for the resumption or not, the run starts at the checkpoint
  have hresume : ∀ (m' : Machine) (r' : ThreadRecord), m'.worker = .running msg state →
      m'.runner = .resuming (setup.agents.ids c) → Held msg n m' rs status r' d as →
      Waits setup.agents r.row.threadId k (some c) rs.length r' → ∃ m'' pos,
        m'.step setup config p = some m'' ∧
        Ready setup msg n m'' state k rs (some c) status r' d as pos := by
    intro m' r' hm' hrunner' h' hwaits'
    refine ⟨{ m' with runner := .ready ⟨record.state, setup.agents.ids c, nodesAfter record.state,
      some (resumeKey config msg (setup.agents.ids c)), []⟩ }, _, ?_, hm', rfl,
      ⟨h'.shows, h'.stream, h'.records, h'.honest⟩, ?_, hnumbered, rfl, nofun, hplace, hafter, nofun⟩
    · rw [step_running setup config p hm' h'.shows.thread]
      unfold advance
      rw [hrunner']
      dsimp only
      rw [h'.records, hfind]
    · rw [hwaits'.owner]
      exact hwaits'
  have henter : m.step setup config p = m.enter setup config p r := by
    rw [step_running setup config p hm h.shows.thread]
    unfold advance
    rw [hrunner]
  have hnext : r.row.nextNode = some (nodeAt k) := by
    rw [hwaits.next]
    exact nodeOrder_getElem? hk
  have hcanonical : r.row.currentCheckpointId = some (setup.agents.ids c) := hwaits.canonical
  by_cases hstable : r.row.status = .stable
  · obtain ⟨r', hclaim, hwaits'⟩ := hwaits.claimNextNode hstable hcanonical hnext config.consumerName
    have hrun : (ThreadOp.claimNextNode (setup.agents.ids c) r.row.stateVersion (nodeAt k)).run
        config.consumerName true r = .ok r' := hclaim
    have hstep : m.step setup config p = some ⟨m.world.setThread msg.task.taskId r', m.records,
        .running msg state, .resuming (setup.agents.ids c)⟩ := by
      rw [henter]
      unfold enter
      rw [hcanonical]
      dsimp only
      rw [hstable, hnext]
      exact call_thread setup config p hm h.shows.thread hrun _
    obtain ⟨m'', pos, hstep', hready⟩ := hresume ⟨m.world.setThread msg.task.taskId r', m.records,
      .running msg state, .resuming (setup.agents.ids c)⟩ r' rfl rfl
      ⟨h.shows.setThread r', h.stream, h.records, hwaits'.honest⟩ hwaits'
    exact ⟨m'', r', pos, .next trivial hstep (.one trivial hstep' trivial), hready⟩
  · have hstep : m.step setup config p = some { m with runner := .resuming (setup.agents.ids c) } := by
      rw [henter]
      unfold enter
      rw [hcanonical]
      dsimp only
      cases hstatus : r.row.status with
      | stable => exact absurd hstatus hstable
      | terminal => exact absurd hstatus hwaits.live
      | running => rfl
      | overriding => rfl
    obtain ⟨m'', pos, hstep', hready⟩ := hresume { m with
      runner := .resuming (setup.agents.ids c) } r hm rfl
      ⟨h.shows, h.stream, h.records, h.honest⟩ hwaits
    exact ⟨m'', r, pos, .next trivial hstep (.one trivial hstep' trivial), hready⟩

end Machine

end CountyFlow.Worker
