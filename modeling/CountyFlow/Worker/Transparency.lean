import CountyFlow.Worker.Sites

/-!
# Recovery from a crash

A worker crashes between any two of its steps; its lock expires, and another worker claims the message.
From almost every point of a crash the second worker brings the message to the end the first was coming
to.  Two kinds of points are left, and there the message is stranded: a review of which there is no
dispatch row is not recognised once its last checkpoint is written, since a thread without a next node
cannot be resumed; and a reconciler that lists less than three checkpoints does not recognise the one of
the first node.
-/

namespace CountyFlow.Worker

open CountyFlow.Core CountyFlow.Lib CountyFlow.Runtime

variable {agents : Agents} {k size : ℕ} {state : IdempotencyState} {as : List AuditRecord}
  {threadId : String}

namespace Machine

variable (setup : Setup) (config : WorkerConfig) (p : ℕ) {msg : StreamMessage} {n : ℕ} {m : Machine}
  {P : Machine → Prop} {rs : List CheckpointRecord} {status : TaskStatus} {r : ThreadRecord}
  {d : Option Dispatch}

/-! ### The second run -/

theorem nodesAfter_stateAt (hk : k < 8) : nodesAfter (agents.stateAt (k + 1)) = nodeOrder.drop (k + 1) := by
  unfold nodesAfter
  rw [agents.stateAt_node]
  show nodeOrder.drop (nodeOrder.idxOf (nodeAt k) + 1) = nodeOrder.drop (k + 1)
  rw [nodeOrder_idxOf hk]

variable {T : TaskStatus}

theorem promoted_completes (hreaches : setup.Reaches T) (hk : k < 7) (hm : m.worker = .running msg state)
    (hrunner : m.runner = .outside)
    (h : Held msg n m (history setup.agents r.row.threadId (k + 3)) status r d [])
    (hwaits : Waits setup.agents r.row.threadId (k + 1) (some (k + 2)) (k + 3) r) :
    ∃ m', Passes setup config p (fun _ => True) m m' ∧ (∃ result, m'.worker = .done result) ∧
      Completed msg.messageId msg.task T m' := by
  have hbound := history_length setup.agents r.row.threadId (k + 3)
  obtain ⟨m₁, r₁, pos, hpasses, hready⟩ := resuming_passes setup config p (by omega) hm hrunner h
    (hbound.symm ▸ hwaits) (history_numbered _ _ _)
    (recordAt setup.agents r.row.threadId (k + 2)) (List.mem_cons_self ..) rfl rfl
    (nodesAfter_stateAt (by omega))
  obtain ⟨m', hend, hdone, hcompleted⟩ := ready_completes setup config p hreaches.1 hreaches.2
    (6 - k) (by omega) hready
  exact ⟨m', hpasses.trans hend, hdone, hcompleted⟩

theorem working_completes (hreaches : setup.Reaches T) (hscan : 0 < setup.runtime.scanLimit)
    (hm : m.worker = .acquiring msg) (hfree : m.world.locks msg.task.idempotencyKey = none)
    (hstatus : status.terminal = false)
    (h : Held msg n m (history setup.agents r.row.threadId size) status r d [])
    (hwaits : Waits setup.agents r.row.threadId k (currentAt k) (k + 2) r) (hsize : size ≤ k + 3)
    (hnine : size ≤ 9) (hplace : k = 0 ∨ k + 2 ≤ size)
    (horphan : k = 0 → size = 3 → 2 < setup.runtime.scanLimit) :
    ∃ m', Passes setup config p (fun _ => True) m m' ∧ (∃ result, m'.worker = .done result) ∧
      Completed msg.messageId msg.task T m' := by
  obtain ⟨m₁, hpasses₁, hw₁, hkeeps⟩ := begun_passes setup config p (P := fun _ => True) hm hfree
    hstatus h fun _ _ => trivial
  have h₁ := h.keeps hkeeps
  have hk : k < 8 := by omega
  have hnext : r.row.nextNode ≠ none := by
    rw [hwaits.next, nodeOrder_getElem? hk]
    nofun
  by_cases hleft : size = k + 3
  · -- the checkpoint of the next node was written and not promoted
    subst hleft
    have hfollows : Follows setup.agents r.row.threadId (currentAt k) (some (setup.agents.ids (k + 1)))
        (history setup.agents r.row.threadId (k + 2)) := by
      cases k with
      | zero => exact ⟨(history_opened setup.agents r.row.threadId (Nat.le_refl 2)).1, rfl⟩
      | succ k => rfl
    have hlength := history_length setup.agents r.row.threadId (k + 2)
    have hlimit : currentAt k = none →
        (history setup.agents r.row.threadId (k + 2)).length < setup.runtime.scanLimit := by
      intro hcurrent
      rw [hlength]
      cases k with
      | zero => exact horphan rfl rfl
      | succ k => cases hcurrent
    obtain ⟨command, hone, r₂, hrun, hwaits₂⟩ := hwaits.reconcile_one _ hk
      (Nat.le_of_eq hlength.symm) (hreaches.2 k hk) hfollows (history_numbered _ _ _)
      (history_counts _ _ (Nat.le_refl (k + 2))) hscan hlimit config.consumerName
    rw [history_next setup.agents r.row.threadId rfl] at hone
    have hmend := mending_promotes setup config p hw₁ h₁ hwaits.live hnext hone hrun
    rw [hlength] at hwaits₂
    have howner := hwaits₂.owner
    rw [← howner] at hwaits₂ h₁
    obtain ⟨m', hend, hdone, hcompleted⟩ := promoted_completes setup config p hreaches (by omega)
      (m := ⟨m₁.world.setThread msg.task.taskId r₂, m₁.records, .running msg .inProgress, .outside⟩)
      rfl rfl ⟨h₁.shows.setThread r₂, h₁.stream, h₁.records, hwaits₂.honest⟩ hwaits₂
    exact ⟨m', hpasses₁.trans (.next trivial hmend hend), hdone, hcompleted⟩
  · have hcounts : ∀ record ∈ history setup.agents r.row.threadId size,
        record.state.get "completed_node_count" ≠ .int (k + 1) := history_counts _ _ (by omega)
    have hmend := mending_passes setup config p hw₁ h₁ hwaits.live hnext
      (hwaits.reconcile_none hcounts setup.runtime.scanLimit config.consumerName)
    have h₂ : Held msg n ⟨m₁.world, m₁.records, .running msg .inProgress, .outside⟩
        (history setup.agents r.row.threadId size) status r d [] := h₁.keeps ⟨rfl, rfl, rfl⟩
    cases k with
    | zero =>
      obtain ⟨hrooted, hstates⟩ := history_opened setup.agents r.row.threadId
        (show size ≤ 2 by omega)
      obtain ⟨m₃, pos, hpasses₃, hready, -⟩ := opening_passes setup config p
        (P := fun _ => True) rfl rfl h₂ hwaits (history_numbered _ _ _) hrooted hstates
        (by rw [history_length]; omega) (fun _ _ => trivial) (fun _ _ => trivial)
        fun _ _ => trivial
      obtain ⟨m', hend, hdone, hcompleted⟩ := ready_completes setup config p hreaches.1 hreaches.2
        7 rfl hready
      exact ⟨m', hpasses₁.trans (.next trivial hmend (hpasses₃.trans hend)), hdone, hcompleted⟩
    | succ k =>
      obtain rfl : size = k + 3 := by omega
      obtain ⟨m', hend, hdone, hcompleted⟩ := promoted_completes setup config p hreaches (by omega)
        rfl rfl h₂ hwaits
      exact ⟨m', hpasses₁.trans (.next trivial hmend hend), hdone, hcompleted⟩

theorem settled_completes {dispatch : Dispatch} {audit : AuditRecord}
    (houtcome : setup.agents.outcome = some T) (hm : m.worker = .acquiring msg)
    (hfree : m.world.locks msg.task.idempotencyKey = none) (hstatus : status.terminal = false)
    (h : Held msg n m rs status r (some dispatch) [audit]) (haudit : audit.dispatchId = dispatch.id)
    (hresult : audit.result = setup.agents.verdict (setup.agents.stateAt 7)) :
    ∃ m', Passes setup config p (fun _ => True) m m' ∧ (∃ result, m'.worker = .done result) ∧
      Completed msg.messageId msg.task T m' := by
  obtain ⟨m₁, hpasses₁, hw₁, hkeeps⟩ := acquired_passes setup config p (P := fun _ => True) hm hfree
    hstatus h fun _ _ => trivial
  have h₁ := h.keeps hkeeps
  obtain ⟨hverdict, -, hterminal⟩ := Agents.outcome_verdict houtcome
  have hstep : WorkerState.step config p (calm setup none .failed) m₁.world (.reconciling msg) =
      some (.looking msg (.reconciled T), m₁.world) := by
    show some (WorkerState.afterReconcile msg
      (m₁.world.db.reconcileExistingExecution msg.task.taskId setup.pick), m₁.world) = _
    rw [h₁.shows.reconcile_terminal haudit, hresult, ← hverdict]
    rcases hterminal with hterminal | hterminal
    · rw [hterminal]
      rfl
    · rw [hterminal]
      rfl
  obtain ⟨m', hend, hdone, hcompleted⟩ := closing_passes setup config p (P := fun _ => True)
    (m := ⟨m₁.world, m₁.records, .looking msg (.reconciled T), .outside⟩) rfl rfl
    (h₁.keeps ⟨rfl, rfl, rfl⟩) nofun (fun _ _ _ _ => trivial) fun _ _ => trivial
  exact ⟨m', hpasses₁.trans (.plain _ _ hw₁ (fun _ _ => by simp) trivial hstep hend), hdone,
    hcompleted⟩

theorem closed_completes (hT : T.terminal = true) (hm : m.worker = .acquiring msg)
    (hfree : m.world.locks msg.task.idempotencyKey = none) (h : Held msg n m rs T r d as) :
    ∃ m', Passes setup config p (fun _ => True) m m' ∧ (∃ result, m'.worker = .done result) ∧
      Completed msg.messageId msg.task T m' := by
  obtain ⟨row, hrow, hbegin⟩ := h.shows.begin_eq
  have hdecision : WorkerState.afterBegin msg (Db.decision row) = .looking msg (.replay T) := by
    unfold Db.decision
    rw [hrow, hT]
    rfl
  obtain ⟨m₁, hpasses, hworker, hdb, hstream, hrecords⟩ := acquiring_passes setup config p
    (P := fun _ => True) hm hfree hbegin (fun _ _ => trivial) fun _ _ _ _ => trivial
  rw [hdecision] at hworker
  obtain ⟨m', hend, hdone, hcompleted⟩ := closing_passes setup config p (P := fun _ => True) hworker
    rfl (h.keeps ⟨hdb, hstream, hrecords⟩) (fun _ => rfl) (fun _ _ _ _ => trivial) fun _ _ => trivial
  exact ⟨m', hpasses.trans hend, hdone, hcompleted⟩

/-! ### Messages that are stranded -/

theorem broken_fails (hm : m.worker = .running msg state) (h : Held msg n m rs status r d as)
    (hstep : m.step setup config p = m.broken setup config p) :
    ∃ m', Passes setup config p (fun _ => True) m m' ∧ (∃ result, m'.worker = .done result) ∧
      m'.world.db.status msg.task.taskId = some status := by
  rw [broken_eq setup config p hm] at hstep
  obtain ⟨m', hend, hdone, hkeeps⟩ := releasing_passes setup config p (P := fun _ => True)
    (m := ⟨m.world, m.records, .releasing msg (some (WorkerState.unacknowledged msg
      (some "FAILED") (some "GRAPH_EXECUTION_ERROR") (some state))), .outside⟩) rfl
    fun _ _ => trivial
  refine ⟨m', .next trivial hstep hend, hdone, ?_⟩
  rw [hkeeps.db]
  exact h.shows.status_eq

theorem exhausted_fails (hm : m.worker = .running msg state) (hrunner : m.runner = .outside)
    (h : Held msg n m rs status r d as) (hr : Exhausted r) :
    ∃ m', Passes setup config p (fun _ => True) m m' ∧ (∃ result, m'.worker = .done result) ∧
      m'.world.db.status msg.task.taskId = some status := by
  refine broken_fails setup config p hm h ?_
  rw [step_running setup config p hm h.shows.thread]
  unfold advance
  rw [hrunner]
  dsimp only
  unfold enter
  cases hcurrent : r.row.currentCheckpointId with
  | none => exact absurd hcurrent hr.canonical
  | some c =>
    dsimp only
    rcases hr.status with hstable | hterminal
    · rw [hstable, hr.next]
    · rw [hterminal]

theorem stranded_fails (hfits : setup.Fits (setup.agents.stateAt 8)) (hscan : 0 < setup.runtime.scanLimit)
    (hm : m.worker = .acquiring msg) (hfree : m.world.locks msg.task.idempotencyKey = none)
    (hstatus : status.terminal = false) (h : Held msg n m (history setup.agents threadId 10) status r d [])
    (hover : Waits setup.agents threadId 7 (some 8) 9 r ∨ Exhausted r) :
    ∃ m', Passes setup config p (fun _ => True) m m' ∧ (∃ result, m'.worker = .done result) ∧
      m'.world.db.status msg.task.taskId = some status := by
  obtain ⟨m₁, hpasses₁, hw₁, hkeeps⟩ := begun_passes setup config p (P := fun _ => True) hm hfree
    hstatus h fun _ _ => trivial
  have h₁ := h.keeps hkeeps
  rcases hover with hwaits | hexhausted
  · have hlength := history_length setup.agents threadId 9
    obtain ⟨command, hone, r₂, hrun, hwaits₂⟩ := hwaits.reconcile_one
      (some (setup.agents.ids 8)) (by decide) (Nat.le_of_eq hlength.symm) hfits rfl
      (history_numbered _ _ _) (history_counts _ _ (Nat.le_refl 9)) hscan nofun config.consumerName
    rw [history_next setup.agents threadId rfl] at hone
    have hmend := mending_promotes setup config p hw₁ h₁ hwaits.live
      (by rw [hwaits.next]; nofun) hone hrun
    obtain ⟨m', hend, hdone, hsame⟩ := exhausted_fails setup config p
      (m := ⟨m₁.world.setThread msg.task.taskId r₂, m₁.records, .running msg .inProgress, .outside⟩)
      rfl rfl ⟨h₁.shows.setThread r₂, h₁.stream, h₁.records, hwaits₂.honest⟩ hwaits₂.exhausted
    exact ⟨m', hpasses₁.trans (.next trivial hmend hend), hdone, hsame⟩
  · have hmend : m₁.step setup config p =
        some ⟨m₁.world, m₁.records, .running msg .inProgress, .outside⟩ := by
      unfold step
      rw [hw₁]
      dsimp only
      unfold mend
      rw [h₁.shows.thread]
      dsimp only
      rw [if_pos (Or.inr hexhausted.next)]
      unfold work
      rw [hw₁]
      simp [WorkerState.step, calm]
    obtain ⟨m', hend, hdone, hsame⟩ := exhausted_fails setup config p
      (m := ⟨m₁.world, m₁.records, .running msg .inProgress, .outside⟩) rfl rfl
      (h₁.keeps ⟨rfl, rfl, rfl⟩) hexhausted
    exact ⟨m', hpasses₁.trans (.next trivial hmend hend), hdone, hsame⟩

theorem short_scan_none (hwaits : Waits setup.agents r.row.threadId 0 none 2 r)
    (hscan : 0 < setup.runtime.scanLimit) (hshort : setup.runtime.scanLimit < 3) :
    reconcileCandidate setup.runtime r.row ((history setup.agents r.row.threadId 3).take
      setup.runtime.scanLimit) config.consumerName = .ok none := by
  have hinjective := setup.agents.ids_injective
  have hhidden : parentIsContinuous r.row ((history setup.agents r.row.threadId 3).take
      setup.runtime.scanLimit) (recordAt setup.agents r.row.threadId 2) = false := by
    unfold parentIsContinuous
    rw [hwaits.canonical]
    show checkpointHasInitialAncestry _ _ = false
    obtain hone | htwo : setup.runtime.scanLimit = 1 ∨ setup.runtime.scanLimit = 2 := by omega
    · rw [hone]
      simp [checkpointHasInitialAncestry, initialLoop, Runtime.recordsById, history, recordAt,
        numbered, hinjective.eq_iff]
    · rw [htwo]
      simp [checkpointHasInitialAncestry, initialLoop, Runtime.recordsById, history, recordAt,
        numbered, hinjective.eq_iff]
  have hnone : reconcileCandidates r.row ((history setup.agents r.row.threadId 3).take
      setup.runtime.scanLimit) = [] := by
    refine List.filter_eq_nil_iff.mpr fun record hrecord hcond => ?_
    obtain ⟨-, -, hcontinuous, hnext⟩ := of_decide_eq_true hcond
    rcases List.mem_cons.mp (List.mem_of_mem_take hrecord) with rfl | hold
    · rw [hhidden] at hcontinuous
      cases hcontinuous
    · exact hwaits.not_continuous (history_counts _ _ (Nat.le_refl 2) record hold) hnext
  unfold reconcileCandidate
  rw [hnone]

/-- The checkpoints of a second run on the input behind the first node. -/
def repeated (agents : Agents) (threadId : String) (s : State) : List CheckpointRecord :=
  numbered agents threadId 4 (some (agents.ids 3)) s ::
    numbered agents threadId 3 (some (agents.ids 2)) (agents.stateAt 1) :: history agents threadId 3

theorem latestBoundary_repeated {s s' : State} (hwaits : Waits setup.agents r.row.threadId 0 none 2 r)
    (hcount : s'.get "completed_node_count" = .int 2) :
    latestBoundary r.row "intake" ((numbered setup.agents r.row.threadId 5
        (some (setup.agents.ids 4)) s' :: repeated setup.agents r.row.threadId s).take
          boundaryListing) =
      some (recordAt setup.agents r.row.threadId 2) := by
  have hnumbered : Numbered setup.agents (numbered setup.agents r.row.threadId 5
      (some (setup.agents.ids 4)) s' :: repeated setup.agents r.row.threadId s) :=
    ⟨rfl, rfl, rfl, history_numbered _ _ 3⟩
  have hprogress : ∀ record : CheckpointRecord, record.state = setup.agents.stateAt 1 →
      zeroProgress record = false := by
    intro record hstate
    unfold zeroProgress
    rw [hstate, setup.agents.stateAt_count 0]
    decide
  have hhidden : ∀ record parent : CheckpointRecord, parent ∈ (numbered setup.agents r.row.threadId 5
      (some (setup.agents.ids 4)) s' :: repeated setup.agents r.row.threadId s) →
      parent.state = setup.agents.stateAt 1 →
      record.parentCheckpointId = some parent.checkpointId →
      parentIsContinuous r.row (numbered setup.agents r.row.threadId 5
        (some (setup.agents.ids 4)) s' :: repeated setup.agents r.row.threadId s) record ≠ true := by
    intro record parent hparent hstate hlink
    unfold parentIsContinuous
    rw [hwaits.canonical]
    show checkpointHasInitialAncestry _ _ ≠ true
    unfold checkpointHasInitialAncestry
    rw [hlink, List.length_cons, initialLoop_progress hnumbered hparent (hprogress parent hstate) _]
    nofun
  have hrooted := (history_opened setup.agents r.row.threadId (Nat.le_refl 2)).1
  have hfirst : parentIsContinuous r.row (numbered setup.agents r.row.threadId 5
      (some (setup.agents.ids 4)) s' :: repeated setup.agents r.row.threadId s)
        (recordAt setup.agents r.row.threadId 2) = true := by
    unfold parentIsContinuous
    rw [hwaits.canonical]
    refine initialLoop_rooted hnumbered (history setup.agents r.row.threadId 2) ?_
      (history_numbered _ _ 2) hrooted _ _ (show 2 < 7 by decide) nofun
    exact ⟨[_, _, _, _], rfl⟩
  rw [List.take_of_length_le (show 6 ≤ 10 by decide)]
  unfold latestBoundary
  rw [List.find?_cons_of_neg, repeated, List.find?_cons_of_neg, List.find?_cons_of_neg, history,
    List.find?_cons_of_pos]
  · refine decide_eq_true ⟨hwaits.owner.symm, setup.agents.stateAt_node 0, ?_, hwaits.next, hfirst⟩
    rw [hwaits.count]
    exact setup.agents.stateAt_count 0
  · intro hcond
    exact hhidden _ (recordAt setup.agents r.row.threadId 2) (by simp [repeated, history]) rfl rfl
      (of_decide_eq_true hcond).2.2.2.2
  · intro hcond
    exact hhidden _ (numbered setup.agents r.row.threadId 3 (some (setup.agents.ids 2))
      (setup.agents.stateAt 1)) (by simp [repeated]) rfl rfl (of_decide_eq_true hcond).2.2.2.2
  · intro hcond
    have hsame := (of_decide_eq_true hcond).2.2.1
    rw [show (numbered setup.agents r.row.threadId 5 (some (setup.agents.ids 4)) s').state.get
      "completed_node_count" = .int 2 from hcount, hwaits.count] at hsame
    cases hsame

/-- A listing that is too short leaves the task without an outcome. -/
theorem short_scan_fails (hfits : setup.Fits (setup.agents.stateAt 1)) (hscan : 0 < setup.runtime.scanLimit)
    (hshort : setup.runtime.scanLimit < 3) (hm : m.worker = .acquiring msg)
    (hfree : m.world.locks msg.task.idempotencyKey = none) (hstatus : status.terminal = false)
    (h : Held msg n m (history setup.agents r.row.threadId 3) status r d [])
    (hwaits : Waits setup.agents r.row.threadId 0 none 2 r) :
    ∃ m', Passes setup config p (fun _ => True) m m' ∧ (∃ result, m'.worker = .done result) ∧
      m'.world.db.status msg.task.taskId = some status := by
  obtain ⟨m₁, hpasses₁, hw₁, hkeeps⟩ := begun_passes setup config p (P := fun _ => True) hm hfree
    hstatus h fun _ _ => trivial
  have h₁ := h.keeps hkeeps
  have hmend := mending_passes setup config p hw₁ h₁ hwaits.live (by rw [hwaits.next]; nofun)
    (short_scan_none setup config hwaits hscan hshort)
  have hlatest : (⟨m₁.world, m₁.records, .running msg .inProgress, .outside⟩ : Machine).latest =
      setup.agents.stateAt 1 := by
    unfold latest
    rw [h₁.records]
    rfl
  obtain ⟨m₂, hpasses₂, hw₂, hr₂, h₂⟩ := feeding_passes setup config p (P := fun _ => True)
    (m := ⟨m₁.world, m₁.records, .running msg .inProgress, .outside⟩) rfl rfl
    (h₁.keeps ⟨rfl, rfl, rfl⟩) hwaits.canonical (fun _ _ => trivial) (fun _ _ => trivial)
    fun _ _ => trivial
  rw [hlatest, history_length] at h₂ hr₂
  -- the input does not take back what the first node has counted
  obtain ⟨s, hs⟩ : ∃ s, s = (setup.agents.stateAt 1).merge setup.agents.input := ⟨_, rfl⟩
  have hscount : s.get "completed_node_count" = .int 1 := by
    rw [hs, State.get_merge, setup.agents.input_count]
    exact setup.agents.stateAt_count 0
  have hsnode : s.get "last_completed_node" = .str "intake" := by
    rw [hs, State.get_merge, setup.agents.input_node]
    exact setup.agents.stateAt_node 0
  rw [← hs] at h₂ hr₂
  obtain ⟨m₃, hstep₃, hw₃, hr₃, h₃⟩ := execute_plain setup config p hw₂ hr₂ rfl (by decide)
    (by decide) h₂
  obtain ⟨m₄, hstep₄, hw₄, hr₄, h₄⟩ := save_eq setup config p hw₃ hr₃ h₃
  obtain ⟨s', hs'⟩ : ∃ s', s' = s.merge (setup.agents.instrumented "intake" s) := ⟨_, rfl⟩
  have hscount' : s'.get "completed_node_count" = .int 2 := by
    rw [hs']
    exact setup.agents.merge_count hscount "intake"
  have hsnode' : s'.get "last_completed_node" = .str "intake" := by
    rw [hs']
    exact State.get_merge_of_lookup (setup.agents.instrumented_node _ _)
  obtain ⟨command, hcommand, r₅, hrun, hwaits₅⟩ := hwaits.runner_promotes 2
    (some (setup.agents.ids 1)) (by decide) (Nat.le_refl 2) hfits config.consumerName
  have h₄' : Held msg n m₄ (numbered setup.agents r.row.threadId 5 (some (setup.agents.ids 4)) s' ::
      repeated setup.agents r.row.threadId s) status r d [] := by
    rw [hs']
    exact h₄
  have hboundary : latestBoundary r.row "intake" (m₄.records.take boundaryListing) =
      some (recordAt setup.agents r.row.threadId 2) := by
    rw [h₄'.records]
    exact latestBoundary_repeated setup hwaits hscount'
  obtain ⟨pos, hr₄', hresume, hrest, hplace⟩ : ∃ pos, m₄.runner = .saved "intake" pos ∧
      pos.resume = none ∧ pos.rest = nodeOrder.drop 1 ∧ pos.state = s' := ⟨_, hr₄, rfl, rfl, hs'.symm⟩
  have hstep₅ : m₄.step setup config p = some ⟨m₄.world.setThread msg.task.taskId r₅, m₄.records,
      .running msg .inProgress, .ready pos⟩ := by
    rw [step_running setup config p hw₄ h₄.shows.thread]
    unfold advance
    rw [hr₄']
    dsimp only
    unfold update
    rw [hresume]
    dsimp only
    rw [hboundary]
    dsimp only
    rw [show runnerCommand setup.runtime r.row (recordAt setup.agents r.row.threadId 2) "intake"
      config.consumerName = .ok command from hcommand]
    exact call_thread setup config p hw₄ h₄.shows.thread hrun _
  have h₅ : Held msg n ⟨m₄.world.setThread msg.task.taskId r₅, m₄.records, .running msg .inProgress,
      .ready pos⟩ (numbered setup.agents r.row.threadId 5 (some (setup.agents.ids 4)) s' ::
        repeated setup.agents r.row.threadId s) status r₅ d [] :=
    ⟨h₄'.shows.setThread r₅, h₄'.stream, h₄'.records, hwaits₅.honest⟩
  obtain ⟨m₆, hstep₆, hw₆, hr₆, h₆⟩ := execute_plain setup config p rfl rfl hrest (by decide)
    (by decide) h₅
  obtain ⟨m₇, hstep₇, hw₇, hr₇, h₇⟩ := save_eq setup config p hw₆ hr₆ h₆
  have hbroken : m₇.step setup config p = m₇.broken setup config p := by
    rw [step_running setup config p hw₇ h₇.shows.thread]
    unfold advance
    rw [hr₇]
    dsimp only
    unfold update
    dsimp only
    rw [hresume]
    dsimp only
    have hmissing : latestBoundary r₅.row "entity_memory" (m₇.records.take boundaryListing) = none := by
      refine List.find?_eq_none.mpr fun record hrecord hcond => ?_
      obtain ⟨-, hnode, hcount, -⟩ := of_decide_eq_true hcond
      rw [hwaits₅.count] at hcount
      have hmem := List.mem_of_mem_take hrecord
      rw [h₇.records] at hmem
      simp only [repeated, List.mem_cons] at hmem
      rcases hmem with rfl | rfl | rfl | rfl | hold
      · have hthree := setup.agents.merge_count (hplace ▸ hscount') "entity_memory"
        cases hthree.symm.trans hcount
      · exact absurd (Value.str.inj (hsnode'.symm.trans hnode)) (by decide)
      · exact absurd (Value.str.inj (hsnode.symm.trans hnode)) (by decide)
      · exact absurd (Value.str.inj ((setup.agents.stateAt_node 0).symm.trans hnode)) (by decide)
      · exact history_counts setup.agents r.row.threadId (Nat.le_refl 3) record hold hcount
    rw [hmissing]
  obtain ⟨m', hend, hdone, hsame⟩ := broken_fails setup config p hw₇ h₇ hbroken
  refine ⟨m', hpasses₁.trans (.next trivial hmend (hpasses₂.trans (.next trivial hstep₃
    (.next trivial hstep₄ (.next trivial hstep₅ (.next trivial hstep₆
      (.next trivial hstep₇ hend))))))), hdone, hsame⟩

/-! ### The crash -/

end Machine

/-- The message as it is delivered once more. -/
def StreamMessage.again (msg : StreamMessage) (n : ℕ) : StreamMessage :=
  ⟨msg.messageId, msg.task, some (n + 1)⟩

namespace Machine

variable {setup : Setup} {config : WorkerConfig} {p : ℕ} {msg : StreamMessage} {n : ℕ} {m : Machine}
  {T : TaskStatus}

theorem redeliver_pending (h : m.world.stream msg.messageId = some ⟨msg.task, .pending n⟩) :
    (m.redeliver msg.messageId).worker = .recovering (msg.again n) ∧
      (m.redeliver msg.messageId).world.locks msg.task.idempotencyKey = none ∧
      (m.redeliver msg.messageId).world.stream msg.messageId =
        some ⟨msg.task, .pending (n + 1)⟩ ∧
      (m.redeliver msg.messageId).world.db = m.world.db ∧
      (m.redeliver msg.messageId).records = m.records := by
  unfold redeliver
  rw [h]
  exact ⟨rfl, Function.update_self _ _ _, Function.update_self _ _ _, rfl, rfl⟩

theorem recovering_passes (hretry : config.retryPolicy.shouldRetry (n + 1) = true)
    (hm : m.worker = .recovering (msg.again n)) : ∃ m', m'.worker = .acquiring (msg.again n) ∧
      m'.world = m.world ∧ m'.records = m.records ∧ ∀ m'',
        Passes setup config p (fun _ => True) m' m'' → Passes setup config p (fun _ => True) m m'' := by
  refine ⟨⟨m.world, m.records, .acquiring (msg.again n), .outside⟩, rfl, rfl, rfl, fun m'' hrest => ?_⟩
  refine .plain _ _ hm (fun _ _ => by simp) trivial ?_ hrest
  show some (WorkerState.recover config (msg.again n), m.world) = _
  unfold WorkerState.recover StreamMessage.again
  dsimp only
  rw [if_pos hretry]

theorem redelivered {rs : List CheckpointRecord} {status : TaskStatus} {r : ThreadRecord}
    {d : Option Dispatch} (hretry : config.retryPolicy.shouldRetry (n + 1) = true)
    (h : Held msg n m rs status r d as) :
    ∃ m', m'.worker = .acquiring (msg.again n) ∧
      m'.world.locks (msg.again n).task.idempotencyKey = none ∧
      Held (msg.again n) (n + 1) m' rs status r d as ∧ ∀ m'',
        Passes setup config p (fun _ => True) m' m'' →
        Passes setup config p (fun _ => True) (m.redeliver msg.messageId) m'' := by
  obtain ⟨hworker, hfree, hstream, hdb, hrecords⟩ := redeliver_pending h.stream
  obtain ⟨m', hw, hworld, hrecords', hpasses⟩ := recovering_passes hretry hworker
  refine ⟨m', hw, ?_, ⟨?_, ?_, ?_, h.honest⟩, hpasses⟩
  · rw [hworld]
    exact hfree
  · rw [hworld, hdb]
    exact h.shows
  · rw [hworld]
    exact hstream
  · rw [hrecords', hrecords]
    exact h.records

theorem history_not_audit (hsize : size ≤ 9) :
    ∀ record ∈ history agents threadId size,
      record.state.get "last_completed_node" ≠ .str "audit" := by
  intro record hrecord hnode
  obtain ⟨j, hj, rfl⟩ := mem_history agents threadId hrecord
  match j, hj, hnode with
  | 0, _, hnode => cases hnode
  | 1, _, hnode =>
    cases agents.input_last.symm.trans hnode
  | j + 2, hj, hnode =>
    have hlast : nodeAt j = "audit" := Value.str.inj ((agents.stateAt_node j).symm.trans hnode)
    have hseven := (nodeAt_audit (by omega)).mp hlast
    omega

theorem history_intake (hsize : size ≤ 10) {record : CheckpointRecord}
    (hhead : (history agents threadId size).head? = some record)
    (hnode : record.state.get "last_completed_node" = .str "intake") : size = 3 := by
  match size, hsize, hhead with
  | 1, _, hhead =>
    cases hhead
    cases hnode
  | 2, _, hhead =>
    cases hhead
    cases agents.input_last.symm.trans hnode
  | j + 3, hsize, hhead =>
    cases hhead
    have hlast : nodeAt j = "intake" := Value.str.inj ((agents.stateAt_node j).symm.trans hnode)
    have hfirst : ∀ i < 8, nodeAt i = "intake" → i = 0 := by decide
    rw [hfirst j (by omega) hlast]

/-- A message delivered again at a site completes exactly if its thread is not stranded. -/
theorem site_iff (hreaches : setup.Reaches T) (hscan : 0 < setup.runtime.scanLimit)
    (hretry : config.retryPolicy.shouldRetry (n + 1) = true) (hsite : Site setup msg n m) :
    (m.redeliver msg.messageId).Ends setup config p (Completed msg.messageId msg.task T) ↔
      ¬ Stranded setup msg.task m := by
  have hterminal := (Agents.outcome_verdict hreaches.1).2.1
  -- a run that leaves the ledger as it was has not come to the outcome
  have hfails : ∀ {m' : Machine} {status : TaskStatus}, status.terminal = false →
      m'.world.db.status msg.task.taskId = some status →
      ¬ Completed msg.messageId msg.task T m' := by
    intro m' status hstatus hsame hcompleted
    rw [hcompleted.1] at hsame
    rw [Option.some.inj hsame, hstatus] at hterminal
    cases hterminal
  cases hsite with
  | unregistered htask hstream hrecords =>
    have hnot : ¬ Stranded setup msg.task m := by
      rintro ⟨-, ⟨-, record, hrecord, -⟩ | ⟨-, ⟨record, hhead, -⟩, -⟩⟩
      · rw [hrecords] at hrecord
        cases hrecord
      · rw [hrecords] at hhead
        cases hhead
    obtain ⟨hworker, hfree, hstream', hdb, hrecords'⟩ := redeliver_pending hstream
    obtain ⟨m₁, hw, hworld, hrecords₁, hpasses⟩ := recovering_passes hretry hworker
    obtain ⟨m', hrun, hdone, hresult⟩ := entered_run setup config p hw (by rw [hworld]; exact hfree)
      (by rw [hworld, hdb]; exact htask) (by rw [hworld]; exact hstream')
      (hrecords₁.trans (hrecords'.trans hrecords))
    rw [(hpasses m' (hrun.mono fun _ _ => trivial)).ends_iff hdone]
    rcases hresult with ⟨-, hnone⟩ | ⟨T', hreaches', hcompleted⟩
    · exact absurd hreaches (hnone T)
    · obtain rfl := Option.some.inj (hreaches.1.symm.trans hreaches'.1)
      exact iff_of_true hcompleted hnot
  | @working status r d k size hstatus hheld hwaits hsize hnine hplace =>
    obtain ⟨m₁, hw, hfree, hheld₁, hpasses⟩ := redelivered hretry hheld
    by_cases hbad : k = 0 ∧ size = 3 ∧ setup.runtime.scanLimit < 3
    · obtain ⟨rfl, rfl, hshort⟩ := hbad
      obtain ⟨m', hrun, hdone, hsame⟩ := short_scan_fails setup config p (hreaches.2 0 (by decide))
        hscan hshort hw hfree hstatus hheld₁ hwaits
      rw [(hpasses m' hrun).ends_iff hdone]
      refine iff_of_false (hfails hstatus hsame) (not_not.mpr ⟨?_, Or.inr ⟨hshort, ?_, ?_⟩⟩)
      · rw [hheld.shows.recorded_iff, hstatus]
        nofun
      · rw [hheld.records]
        exact ⟨_, rfl, setup.agents.stateAt_node 0⟩
      · exact ⟨r, hheld.shows.thread, hwaits.canonical⟩
    · obtain ⟨m', hrun, hdone, hcompleted⟩ := working_completes setup config p hreaches hscan hw
        hfree hstatus hheld₁ hwaits hsize hnine hplace (by omega)
      rw [(hpasses m' hrun).ends_iff hdone]
      refine iff_of_true hcompleted ?_
      rintro ⟨-, ⟨-, record, hrecord, hnode⟩ | ⟨hshort, ⟨record, hhead, hnode⟩, r', hr', hcurrent⟩⟩
      · rw [hheld.records] at hrecord
        exact history_not_audit hnine record hrecord hnode
      · rw [hheld.records] at hhead
        have hthree := history_intake (by omega) hhead hnode
        rw [hheld.shows.thread] at hr'
        rw [← Option.some.inj hr', hwaits.canonical] at hcurrent
        have hzero : k = 0 := by
          by_contra hk
          unfold currentAt at hcurrent
          rw [if_neg hk] at hcurrent
          cases hcurrent
        exact hbad ⟨hzero, hthree, hshort⟩
  | @settled status r threadId size dispatch audit hstatus hsize hheld haudit hresult =>
    obtain ⟨m₁, hw, hfree, hheld₁, hpasses⟩ := redelivered hretry hheld
    obtain ⟨m', hrun, hdone, hcompleted⟩ := settled_completes setup config p hreaches.1 hw hfree
      hstatus hheld₁ haudit hresult
    rw [(hpasses m' hrun).ends_iff hdone]
    refine iff_of_true hcompleted ?_
    rintro ⟨-, ⟨hnone, -⟩ | ⟨-, ⟨record, hhead, hnode⟩, -⟩⟩
    · rw [hheld.shows.dispatch] at hnone
      cases hnone
    · rw [hheld.records] at hhead
      have hthree := history_intake (by omega) hhead hnode
      omega
  | @stranded status r threadId hstatus hheld hover =>
    obtain ⟨m₁, hw, hfree, hheld₁, hpasses⟩ := redelivered hretry hheld
    obtain ⟨m', hrun, hdone, hsame⟩ := stranded_fails setup config p (hreaches.2 7 (by decide))
      hscan hw hfree hstatus hheld₁ hover
    rw [(hpasses m' hrun).ends_iff hdone]
    refine iff_of_false (hfails hstatus hsame) (not_not.mpr ⟨?_, Or.inl ⟨hheld.shows.dispatch, ?_⟩⟩)
    · rw [hheld.shows.recorded_iff, hstatus]
      nofun
    · rw [hheld.records]
      exact ⟨_, List.mem_cons_self .., setup.agents.stateAt_node 7⟩
  | closed houtcome hclosed =>
    obtain rfl := Option.some.inj (hreaches.1.symm.trans houtcome)
    obtain ⟨r, d, as, hshows, hr⟩ := hclosed.shows
    have hnot : ¬ Stranded setup msg.task m :=
      fun hstranded => hstranded.1 (hshows.recorded_iff.mpr hterminal)
    rcases hclosed.stream with hstream | hstream
    · have hheld : Held msg n m m.records T r d as := ⟨hshows, hstream, rfl, fun _ _ _ _ => hr⟩
      obtain ⟨m₁, hw, hfree, hheld₁, hpasses⟩ := redelivered hretry hheld
      obtain ⟨m', hrun, hdone, hcompleted⟩ := closed_completes setup config p hterminal hw hfree
        hheld₁
      rw [(hpasses m' hrun).ends_iff hdone]
      exact iff_of_true hcompleted hnot
    · refine iff_of_true ⟨0, m.redeliver msg.messageId, rfl, ?_, ?_⟩ hnot
      · unfold redeliver
        rw [hstream]
        exact ⟨none, rfl⟩
      · unfold redeliver
        rw [hstream]
        exact ⟨hshows.status_eq, Db.terminated_iff.mpr ⟨r, hshows.thread, hr⟩, hstream⟩

/-- **Recovery from a crash.**  A fresh message whose undisturbed processing ends with an approval or a
review: wherever the worker crashes, the one that takes the message over brings it to the same end,
unless the message is stranded. -/
theorem recovery_is_transparent {start : Machine} (config' : WorkerConfig) (p' now pick : ℕ)
    (hstart : Fresh msg n start) (hT : T = .approved ∨ T = .reviewRequired)
    (hends : start.Ends setup config p fun m => m.world.db.status msg.task.taskId = some T)
    (hscan : 0 < setup.runtime.scanLimit) (hretry : config'.retryPolicy.shouldRetry (n + 1) = true)
    {steps : ℕ} (hcrash : start.steps setup config p steps = some m) :
    (m.redeliver msg.messageId).Ends { setup with now := now, pick := pick } config' p'
        (Completed msg.messageId msg.task T) ↔
      ¬ Stranded setup msg.task m := by
  obtain ⟨m', hpasses, hdone, hresult⟩ := fresh_run setup config p hstart
  rw [hpasses.ends_iff hdone] at hends
  have hterminal : T.terminal = true := by
    rcases hT with rfl | rfl
    · rfl
    · rfl
  have hreaches : setup.Reaches T := by
    rcases hresult with ⟨status, hstatus, hnot⟩ | ⟨T', hreaches, hcompleted⟩
    · rw [hstatus] at hends
      rw [← Option.some.inj hends, hnot] at hterminal
      cases hterminal
    · rw [hcompleted.1] at hends
      rw [← Option.some.inj hends]
      exact hreaches
  have hsite := hpasses.all (step_done hdone) hcrash
  exact site_iff hreaches hscan hretry (hsite.later now pick)

/-! ### A review without a dispatch row -/

/-- The nodes of a task that ends as a review; the dispatcher may have a proposal. -/
def reviewing (proposal : Option (ℕ × DispatchStatus)) : Setup where
  runtime := ⟨10, 1000⟩
  agents :=
    { input := [("task_id", .str "TASK-1")]
      patch := fun _ _ => []
      proposal := fun _ => proposal
      verdict := fun _ => .reviewRequired
      manualReview := fun _ => true
      reason := fun _ => "No recommended route."
      auditId := 1
      ids := fun n => String.ofList (List.replicate n 'c')
      size := fun _ => 100
      ids_injective := by
        intro a b h
        simpa using congrArg String.length h
      input_node := rfl
      input_count := rfl
      input_error := nofun
      patch_error := fun _ _ => nofun }
  now := 5
  pick := 0

/-- A message that has just been read, of a task that nobody has submitted. -/
def delivered : Machine where
  world :=
    { db := ⟨Table.empty, fun _ => none, Table.empty, []⟩
      locks := fun _ => none
      stream := fun id => if id = "1-0" then some ⟨System.exampleTask, .pending 1⟩ else none
      deadLetters := [] }
  records := []
  worker := .acquiring ⟨"1-0", System.exampleTask, none⟩
  runner := .outside

theorem delivered_fresh : Fresh ⟨"1-0", System.exampleTask, none⟩ 1 delivered :=
  ⟨rfl, rfl, rfl, rfl, Or.inl ⟨rfl, nofun, by decide, rfl, rfl, rfl⟩⟩

theorem delivered_ends {proposal : Option (ℕ × DispatchStatus)}
    (h : (delivered.steps (reviewing proposal) System.exampleConfig 0 40).map (fun m =>
      (m.world.db.status "TASK-1", m.worker matches .done _)) = some (some .reviewRequired, true)) :
    delivered.Ends (reviewing proposal) System.exampleConfig 0
      fun m => m.world.db.status System.exampleTask.taskId = some .reviewRequired := by
  obtain ⟨m, hm, heq⟩ := Option.map_eq_some_iff.mp h
  obtain ⟨hstatus, hdone⟩ := Prod.mk.inj heq
  refine ⟨40, m, hm, ?_, hstatus⟩
  split at hdone
  · exact ⟨_, by assumption⟩
  · cases hdone

/-- The task has a proposal, and the worker crashes after the last promotion: the message is brought to
its end. -/
theorem recovery_is_transparent_settled : ∃ m,
    delivered.steps (reviewing (some (1, .reviewRequired))) System.exampleConfig 0 32 = some m ∧
      (m.redeliver "1-0").Ends { reviewing (some (1, .reviewRequired)) with now := 90, pick := 0 }
        ⟨"worker-2", defaultRetryPolicy⟩ 1
        (Completed "1-0" System.exampleTask .reviewRequired) := by
  have hx : (delivered.steps (reviewing (some (1, .reviewRequired))) System.exampleConfig 0 32).map
      (fun m => (m.world.db.dispatches.find "TASK-1").isSome) = some true := by
    decide +kernel
  obtain ⟨m, hm, hrow⟩ := Option.map_eq_some_iff.mp hx
  refine ⟨m, hm, (recovery_is_transparent ⟨"worker-2", defaultRetryPolicy⟩ 1 90 0 delivered_fresh
    (Or.inr rfl) (delivered_ends (by decide +kernel)) (by decide) rfl hm).mpr ?_⟩
  rintro ⟨-, ⟨hnone, -⟩ | ⟨hshort, -⟩⟩
  · rw [show m.world.db.dispatches.find "TASK-1" = none from hnone] at hrow
    cases hrow
  · exact absurd hshort (by decide)

/-- **A review without a dispatch row is lost**: the worker crashes after the last promotion, and the one
that takes the message over finds a thread without a next node. -/
theorem recovery_loses_review :
    ¬ ∀ (setup : Setup) (config config' : WorkerConfig) (p p' now pick n steps : ℕ)
      (msg : StreamMessage) (T : TaskStatus) (start m : Machine), Fresh msg n start →
      (T = .approved ∨ T = .reviewRequired) →
      (start.Ends setup config p fun m => m.world.db.status msg.task.taskId = some T) →
      0 < setup.runtime.scanLimit → config'.retryPolicy.shouldRetry (n + 1) = true →
      start.steps setup config p steps = some m →
      (m.redeliver msg.messageId).Ends { setup with now := now, pick := pick } config' p'
        (Completed msg.messageId msg.task T) := by
  intro hresumes
  have hx : (delivered.steps (reviewing none) System.exampleConfig 0 32).map (fun m =>
      (m.world.db.status "TASK-1", m.world.db.dispatches.find "TASK-1",
        m.records.head?.map fun record => record.state.get "last_completed_node")) =
      some (some .processing, none, some (.str "audit")) := by
    decide +kernel
  obtain ⟨m, hm, heq⟩ := Option.map_eq_some_iff.mp hx
  obtain ⟨hstatus, heq⟩ := Prod.mk.inj heq
  obtain ⟨hnone, hnode⟩ := Prod.mk.inj heq
  obtain ⟨record, hhead, hlast⟩ := Option.map_eq_some_iff.mp hnode
  have hreaches : Setup.Reaches { reviewing none with now := 90, pick := 0 } .reviewRequired := by
    refine ⟨rfl, ?_⟩
    unfold Setup.Fits
    decide +kernel
  obtain ⟨m', hpasses, hdone, -⟩ := fresh_run (reviewing none) System.exampleConfig 0 delivered_fresh
  have hsite := hpasses.all (step_done hdone) hm
  have hends := hresumes (reviewing none) System.exampleConfig ⟨"worker-2", defaultRetryPolicy⟩ 0 1 90 0 1
    32 _ .reviewRequired delivered m delivered_fresh (Or.inr rfl) (delivered_ends (by decide +kernel))
    (by decide) rfl hm
  refine (site_iff hreaches (by decide) rfl (hsite.later 90 0)).mp hends ⟨?_, Or.inl ⟨hnone, record,
    List.mem_of_mem_head? hhead, hlast⟩⟩
  rintro ⟨status, hrecorded, hterminal⟩
  rw [show m.world.db.status System.exampleTask.taskId = some .processing from hstatus] at hrecorded
  rw [← Option.some.inj hrecorded] at hterminal
  cases hterminal

end Machine

end CountyFlow.Worker
