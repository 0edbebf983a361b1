import CountyFlow.Worker.Runner

/-!
# What a worker finds

The tables, the thread and the checkpoints of a task as a worker finds them that takes the task over,
and what its calls answer there.
-/

namespace CountyFlow.Worker

open CountyFlow.Core CountyFlow.Lib CountyFlow.Runtime

/-! ### The tables -/

/-- What the tables say about the task of a message: its status, its thread, its dispatch and its
audits; and nobody else has its key. -/
structure Shows (task : DispatchTaskMessage) (db : Db) (status : TaskStatus) (r : ThreadRecord)
    (d : Option Dispatch) (as : List AuditRecord) : Prop where
  row : ∃ row, db.tasks.find task.taskId = some row ∧ row.idempotencyKey = task.idempotencyKey ∧
    row.status = status
  key : ∀ row ∈ db.tasks.rows, row.idempotencyKey = task.idempotencyKey → row.taskId = task.taskId
  thread : db.threads task.taskId = some r
  dispatch : db.dispatches.find task.taskId = d
  audits : (db.audits.filter fun a => a.taskId = task.taskId) = as

variable {dispatch : Dispatch}

namespace Shows

variable {task : DispatchTaskMessage} {db : Db} {status : TaskStatus} {r : ThreadRecord}
  {d : Option Dispatch} {as : List AuditRecord}

theorem status_eq (h : Shows task db status r d as) : db.status task.taskId = some status := by
  obtain ⟨row, hfind, -, rfl⟩ := h.row
  exact Db.status_eq hfind

theorem recorded_iff (h : Shows task db status r d as) :
    db.Recorded task.taskId ↔ status.terminal = true := by
  constructor
  · rintro ⟨status', hstatus', hterm⟩
    rw [h.status_eq] at hstatus'
    rw [Option.some.inj hstatus']
    exact hterm
  · intro hterm
    exact ⟨status, h.status_eq, hterm⟩

theorem begin_eq (h : Shows task db status r d as) : ∃ row, row.status = status ∧
    db.begin task.taskId task.orderId task.idempotencyKey true = .ok (Db.decision row, db) := by
  obtain ⟨row, hfind, hkey, hstatus⟩ := h.row
  refine ⟨row, hstatus, ?_⟩
  have hexisting : db.existing task.taskId task.idempotencyKey = .ok (some row) := by
    unfold Db.existing
    rw [hfind, if_neg (by simpa using hkey), if_neg]
    · rfl
    · intro hany
      cases hb : db.byKey task.idempotencyKey with
      | none =>
        rw [hb] at hany
        cases hany
      | some row' =>
        rw [hb] at hany
        have hid := h.key row' (List.mem_of_find?_eq_some hb) (by simpa using List.find?_some hb)
        simp [hid] at hany
  unfold Db.begin
  rw [hexisting]

theorem setStatus (h : Shows task db status r d as) (status' : TaskStatus) (started completed : Bool)
    (now : ℕ) : ∃ db', db.setStatus task.taskId status' started completed now true = .ok db' ∧
      Shows task db' status' r d as := by
  obtain ⟨row, hfind, hkey, -⟩ := h.row
  have hid : row.taskId = task.taskId := Table.find_key hfind
  let row' : DispatchTask :=
    { row with
      status := status'
      startedAt := if started then some now else row.startedAt
      completedAt := if completed then some now else row.completedAt }
  have hset : db.setStatus task.taskId status' started completed now true =
      .ok { db with tasks := db.tasks.replace row' } := by
    unfold Db.setStatus
    rw [hfind]
    rfl
  refine ⟨_, hset, ⟨row', ?_, hkey, rfl⟩, ?_, h.thread, h.dispatch, h.audits⟩
  · rw [← hid]
    have hrow : db.tasks.find row'.taskId = some row := by
      rw [← hid] at hfind
      exact hfind
    exact Table.find_replace_self hrow
  · intro other hother hsame
    obtain ⟨old, hold, rfl⟩ := List.mem_map.mp hother
    by_cases hold' : old.taskId = row'.taskId
    · rw [if_pos hold']
      exact hid
    · rw [if_neg hold'] at hsame ⊢
      exact h.key old hold hsame

theorem setThread {w : World} (h : Shows task w.db status r d as) (r' : ThreadRecord) :
    Shows task (w.setThread task.taskId r').db status r' d as :=
  ⟨h.row, h.key, Function.update_self _ _ _, h.dispatch, h.audits⟩

theorem executeDispatch (h : Shows task db status r d as) (id : ℕ) (st : DispatchStatus) :
    Shows task (db.executeDispatch task.taskId id st) status r
      (d <|> some ⟨id, task.taskId, st, 1⟩) as := by
  obtain ⟨row, hfind, -⟩ := h.row
  unfold Db.executeDispatch
  rw [hfind]
  cases hadd : db.dispatches.add ⟨id, task.taskId, st, 1⟩ with
  | none =>
    have hd : ∃ dispatch, d = some dispatch := by
      cases hd : d with
      | some dispatch => exact ⟨dispatch, rfl⟩
      | none =>
        have hnone := h.dispatch
        rw [hd] at hnone
        obtain ⟨t, ht⟩ := Table.add_of_find_none (t := db.dispatches)
          (r := ⟨id, task.taskId, st, 1⟩) hnone
        rw [hadd] at ht
        cases ht
    obtain ⟨dispatch, rfl⟩ := hd
    exact h
  | some dispatches =>
    have hnone : d = none := by
      rw [← h.dispatch]
      exact Table.find_none_of_add hadd
    refine ⟨h.row, h.key, h.thread, ?_, h.audits⟩
    show dispatches.find task.taskId = _
    rw [Table.find_add hadd, if_pos rfl, hnone]
    rfl

theorem auditsOf_eq (h : Shows task db status r d as) (dispatchId : ℕ) :
    db.auditsOf task.taskId dispatchId = as.filter fun a => a.dispatchId = dispatchId := by
  rw [← h.audits]
  unfold Db.auditsOf
  rw [List.filter_filter]
  refine List.filter_congr fun a _ => ?_
  simp [and_comm]

theorem persistAudit_none (h : Shows task db status r none as) (id : ℕ) (result : AuditResult)
    (reason : String) : Shows task (db.persistAudit task.taskId id result reason) status r none as := by
  obtain ⟨row, hfind, -⟩ := h.row
  unfold Db.persistAudit
  rw [hfind, h.dispatch]
  exact h

theorem persistAudit_some (h : Shows task db status r (some dispatch) []) (id : ℕ) (result : AuditResult)
    (reason : String) :
    Shows task (db.persistAudit task.taskId id result reason) status r (some dispatch)
      [⟨id, task.taskId, dispatch.id, result, reason⟩] := by
  obtain ⟨row, hfind, -⟩ := h.row
  have hempty : (db.auditsOf task.taskId dispatch.id).isEmpty = true := by
    rw [h.auditsOf_eq]
    rfl
  unfold Db.persistAudit
  rw [hfind, h.dispatch]
  dsimp only
  rw [if_pos hempty]
  refine ⟨h.row, h.key, h.thread, h.dispatch, ?_⟩
  show (db.audits ++ [_]).filter _ = _
  rw [List.filter_append, h.audits]
  simp

theorem reconcile_not_terminal (h : Shows task db status r d []) (pick : ℕ) :
    (db.reconcileExistingExecution task.taskId pick).isTerminal = false := by
  obtain ⟨row, hfind, -⟩ := h.row
  unfold Db.reconcileExistingExecution
  rw [hfind, h.dispatch]
  cases d with
  | none => rfl
  | some dispatch =>
    dsimp only
    rw [h.auditsOf_eq]
    rfl

theorem reconcile_terminal {audit : AuditRecord} (h : Shows task db status r (some dispatch) [audit])
    (haudit : audit.dispatchId = dispatch.id) (pick : ℕ) : db.reconcileExistingExecution task.taskId pick =
      ⟨some dispatch.id, some audit.id, some audit.result⟩ := by
  obtain ⟨row, hfind, -⟩ := h.row
  have hone : db.auditsOf task.taskId dispatch.id = [audit] := by
    rw [h.auditsOf_eq]
    simp [haudit]
  unfold Db.reconcileExistingExecution
  rw [hfind, h.dispatch]
  dsimp only
  rw [hone]
  simp [Nat.mod_one]

end Shows

/-! ### The thread -/

theorem key_ne {k l a b : String} (j : ℕ) (h : k.toList.take j ≠ l.toList.take j) (hk : j ≤ k.toList.length)
    (hl : j ≤ l.toList.length) : k ++ a ≠ l ++ b := by
  intro heq
  have hlist := congrArg (fun s : String => s.toList.take j) heq
  simp only [String.toList_append] at hlist
  rw [List.take_append_of_le_length hk, List.take_append_of_le_length hl] at hlist
  exact h hlist

theorem append_left_cancel {k a b : String} (h : k ++ a = k ++ b) : a = b := by
  have hlist := congrArg String.toList h
  simp only [String.toList_append] at hlist
  exact String.toList_inj.mp (List.append_cancel_left hlist)

/-- The first nodes are done and promoted, the last of them in the checkpoint with the number
`current`; no checkpoint from `bound` on has an event yet. -/
structure Waits (agents : Agents) (threadId : String) (k : ℕ) (current : Option ℕ) (bound : ℕ)
    (r : ThreadRecord) : Prop where
  owner : r.row.threadId = threadId
  live : r.row.status ≠ .terminal
  canonical : r.row.currentCheckpointId = current.map agents.ids
  next : r.row.nextNode = nodeOrder[k]?
  rests : r.row.nextNode = none → r.row.status = .stable
  count : r.row.checkpointCount = k
  before : ∀ j ∈ current, j < bound
  fresh : ∀ n, bound ≤ n → r.hasEvent ("checkpoint:" ++ agents.ids n) = false ∧
    r.hasEvent ("reconcile:" ++ agents.ids n) = false
  honest : Honest r

theorem hasEvent_append {r r' : ThreadRecord} {e : RuntimeThreadEvent} {key : String}
    (hevents : r'.events = r.events ++ [e]) (hr : r.hasEvent key = false) (hkey : e.eventKey ≠ key) :
    r'.hasEvent key = false := by
  unfold ThreadRecord.hasEvent at hr ⊢
  rw [hevents, List.any_append, hr]
  simpa using hkey

namespace Waits

variable {agents : Agents} {threadId : String} {k bound : ℕ} {current : Option ℕ} {r : ThreadRecord}

theorem create (agents : Agents) (taskId threadId : String) :
    Waits agents threadId 0 none 0 (ThreadRecord.create taskId threadId) := by
  refine ⟨rfl, nofun, rfl, rfl, nofun, rfl, nofun, fun n _ => ?_, Honest.create taskId threadId⟩
  have hcheckpoint : "thread:created" ≠ "checkpoint:" ++ agents.ids n :=
    key_ne (k := "thread:") (a := "created") 1 (by decide) (by decide) (by decide)
  have hreconcile : "thread:created" ≠ "reconcile:" ++ agents.ids n :=
    key_ne (k := "thread:") (a := "created") 1 (by decide) (by decide) (by decide)
  constructor
  · simpa [ThreadRecord.hasEvent, ThreadRecord.create] using hcheckpoint
  · simpa [ThreadRecord.hasEvent, ThreadRecord.create] using hreconcile

theorem mono (h : Waits agents threadId k current bound r) {bound' : ℕ} (hle : bound ≤ bound') :
    Waits agents threadId k current bound' r :=
  ⟨h.owner, h.live, h.canonical, h.next, h.rests, h.count, fun j hj => Nat.lt_of_lt_of_le (h.before j hj) hle,
    fun n hn => h.fresh n (Nat.le_trans hle hn), h.honest⟩

theorem claimNextNode (h : Waits agents threadId k current bound r) {c node : String}
    (hstable : r.row.status = .stable) (hc : r.row.currentCheckpointId = some c)
    (hnode : r.row.nextNode = some node) (consumer : String) :
    ∃ r', r.claimNextNode c r.row.stateVersion node consumer = .ok r' ∧
      Waits agents threadId k current bound r' := by
  refine ⟨r.claimed .running (some consumer), ?_, ?_⟩
  · unfold ThreadRecord.claimNextNode ThreadRecord.claimBoundary
    rw [if_pos (ThreadRecord.atBoundary_iff.mpr ⟨hstable, hc, rfl, hnode⟩)]
  · refine ⟨h.owner, nofun, h.canonical, h.next, ?_, h.count, h.before, h.fresh, ?_⟩
    · intro hnone
      rw [show (r.claimed .running (some consumer)).row.nextNode = some node from hnode] at hnone
      cases hnone
    intro e he status hkey
    exact absurd (h.honest e he status hkey) h.live

theorem markResumed (h : Waits agents threadId k current bound r) (key consumer : String) :
    ∃ r', r.markResumed ("resume:" ++ key) consumer true = .ok r' ∧
      Waits agents threadId k current bound r' := by
  unfold ThreadRecord.markResumed
  rw [if_neg h.live]
  by_cases hevent : r.hasEvent ("resume:" ++ key) = true
  · exact ⟨r, by rw [if_pos hevent], h⟩
  · rw [if_neg hevent, if_neg (by simp)]
    refine ⟨_, rfl, h.owner, h.live, h.canonical, h.next, h.rests, h.count, h.before, fun n hn => ?_, ?_⟩
    · exact ⟨hasEvent_append rfl (h.fresh n hn).1 (key_ne 1 (by decide) (by decide) (by decide)),
        hasEvent_append rfl (h.fresh n hn).2 (key_ne 3 (by decide) (by decide) (by decide))⟩
    · exact h.honest.append rfl (fun status => key_ne_terminal (by decide) (by decide)) id

theorem promote (h : Waits agents threadId k current bound r) {n : ℕ} (hn : bound ≤ n)
    {command : PromoteCheckpoint} (hid : command.checkpointId = agents.ids n)
    (hexpected : command.expectedCheckpointId = r.row.currentCheckpointId)
    (hversion : command.expectedStateVersion = r.row.stateVersion)
    (hnext : command.nextNode = nodeOrder[k + 1]?)
    (hkey : command.eventKey = "checkpoint:" ++ agents.ids n ∨
      command.eventKey = "reconcile:" ++ agents.ids n) :
    ∃ r', r.promoteCheckpoint command true = .ok r' ∧
      Waits agents threadId (k + 1) (some n) (n + 1) r' := by
  have hevent : r.hasEvent command.eventKey = false := by
    rcases hkey with hkey | hkey
    · rw [hkey]
      exact (h.fresh n hn).1
    · rw [hkey]
      exact (h.fresh n hn).2
  have hother : r.row.currentCheckpointId ≠ some command.checkpointId := by
    rw [h.canonical, hid]
    intro hsame
    obtain ⟨j, hj, hids⟩ := Option.map_eq_some_iff.mp hsame
    have hlt := h.before j hj
    have hjn := agents.ids_injective hids
    omega
  refine ⟨r.promoted command, ?_, h.owner, nofun, ?_, hnext, fun _ => rfl, ?_, ?_, fun n' hn' => ?_,
    ?_⟩
  · unfold ThreadRecord.promoteCheckpoint
    rw [if_neg hother, if_neg h.live, if_neg (by simp [hexpected, hversion]),
      if_neg (by simp [hevent])]
  · show some command.checkpointId = _
    rw [hid]
    rfl
  · show r.row.checkpointCount + 1 = k + 1
    rw [h.count]
  · intro j hj
    rw [Option.some.inj hj]
    exact Nat.lt_succ_self j
  · have hids : agents.ids n ≠ agents.ids n' := by
      intro hsame
      have hnn := agents.ids_injective hsame
      omega
    have hold := h.fresh n' (by omega)
    have hnew : command.eventKey ≠ "checkpoint:" ++ agents.ids n' ∧
        command.eventKey ≠ "reconcile:" ++ agents.ids n' := by
      rcases hkey with hkey | hkey
      · rw [hkey]
        exact ⟨fun hsame => hids (append_left_cancel hsame),
          key_ne 1 (by decide) (by decide) (by decide)⟩
      · rw [hkey]
        exact ⟨key_ne 1 (by decide) (by decide) (by decide),
          fun hsame => hids (append_left_cancel hsame)⟩
    exact ⟨hasEvent_append rfl hold.1 hnew.1, hasEvent_append rfl hold.2 hnew.2⟩
  · refine h.honest.append rfl (fun status => ?_) fun ht => absurd ht h.live
    rcases hkey with hkey | hkey
    · show command.eventKey ≠ _
      rw [hkey]
      exact key_ne_terminal (by decide) (by decide)
    · show command.eventKey ≠ _
      rw [hkey]
      exact key_ne_terminal (by decide) (by decide)

end Waits

/-! ### The checkpoints -/

/-- The checkpoints are numbered as they were written; the newest is the first. -/
def Numbered (agents : Agents) : List CheckpointRecord → Prop
  | [] => True
  | record :: rs => record.checkpointId = agents.ids rs.length ∧ Numbered agents rs

/-- Each checkpoint continues the one before, and no node is done. -/
def Rooted (threadId : String) : List CheckpointRecord → Prop
  | [] => True
  | record :: rs => record.threadId = threadId ∧ record.checkpointNamespace = "" ∧
      zeroProgress record = true ∧
      record.parentCheckpointId = rs.head?.map CheckpointRecord.checkpointId ∧ Rooted threadId rs

variable {agents : Agents}

theorem Numbered.lt {rs : List CheckpointRecord} (h : Numbered agents rs) :
    ∀ record ∈ rs, ∃ n < rs.length, record.checkpointId = agents.ids n := by
  induction rs with
  | nil => exact nofun
  | cons newest rs ih =>
    intro record hrecord
    rcases List.mem_cons.mp hrecord with rfl | hrecord
    · exact ⟨rs.length, Nat.lt_succ_self _, h.1⟩
    · obtain ⟨n, hn, hid⟩ := ih h.2 record hrecord
      exact ⟨n, Nat.lt_succ_of_lt hn, hid⟩

theorem Numbered.unique {rs : List CheckpointRecord} (h : Numbered agents rs) :
    ∀ a ∈ rs, ∀ b ∈ rs, a.checkpointId = b.checkpointId → a = b := by
  induction rs with
  | nil => exact nofun
  | cons newest rs ih =>
    have hnewest : ∀ a ∈ rs, a.checkpointId ≠ newest.checkpointId := by
      intro a ha hsame
      obtain ⟨n, hn, hid⟩ := h.2.lt a ha
      rw [hid, h.1] at hsame
      have heq := agents.ids_injective hsame
      omega
    intro a ha b hb hsame
    rcases List.mem_cons.mp ha with hnew | hold
    · rcases List.mem_cons.mp hb with hnew' | hold'
      · rw [hnew, hnew']
      · rw [hnew] at hsame
        exact absurd hsame.symm (hnewest b hold')
    · rcases List.mem_cons.mp hb with hnew' | hold'
      · rw [hnew'] at hsame
        exact absurd hsame (hnewest a hold)
      · exact ih h.2 a hold b hold' hsame

variable {record : CheckpointRecord}

theorem Numbered.recordsById {rs : List CheckpointRecord} (h : Numbered agents rs) (hrecord : record ∈ rs) :
    recordsById rs record.checkpointId = some record := by
  cases hfind : Runtime.recordsById rs record.checkpointId with
  | none =>
    have hnot := List.find?_eq_none.mp hfind record (List.mem_reverse.mpr hrecord)
    simp at hnot
  | some found =>
    obtain ⟨hmem, hid⟩ := recordsById_spec hfind
    rw [h.unique found hmem record hrecord hid]

variable {records : List CheckpointRecord}

theorem initialLoop_rooted {threadId : String} (hnumbered : Numbered agents records) :
    ∀ rs, rs <:+ records → Numbered agents rs → Rooted threadId rs → ∀ fuel seen, rs.length < fuel →
      (∀ id ∈ seen, ∃ n, rs.length ≤ n ∧ id = agents.ids n) →
      initialLoop threadId records fuel (rs.head?.map CheckpointRecord.checkpointId) seen = true := by
  intro rs
  induction rs with
  | nil =>
    intro _ _ _ fuel seen hfuel _
    obtain ⟨fuel, rfl⟩ := Nat.exists_eq_succ_of_ne_zero (Nat.ne_of_gt hfuel)
    rfl
  | cons record rs ih =>
    intro hsuffix hnum hroot fuel seen hfuel hseen
    obtain ⟨fuel, rfl⟩ := Nat.exists_eq_succ_of_ne_zero (Nat.ne_of_gt (Nat.zero_lt_of_lt hfuel))
    obtain ⟨hthread, hnamespace, hzero, hparent, hrest⟩ := hroot
    have hnew : record.checkpointId ∉ seen := by
      intro hmem
      obtain ⟨n, hn, hid⟩ := hseen _ hmem
      rw [hnum.1] at hid
      have hlen : rs.length + 1 ≤ n := hn
      have heq := agents.ids_injective hid
      omega
    show initialLoop threadId records (fuel + 1) (some record.checkpointId) seen = true
    unfold initialLoop
    rw [if_neg hnew, hnumbered.recordsById (hsuffix.subset (List.mem_cons_self ..))]
    dsimp only
    rw [if_neg (by simp [hthread, hnamespace]), if_neg (by simp [hzero]), hparent]
    refine ih ((List.suffix_cons record rs).trans hsuffix) hnum.2 hrest fuel _
      (Nat.lt_of_succ_lt_succ hfuel) fun id hid => ?_
    rcases List.mem_cons.mp hid with rfl | hid
    · exact ⟨rs.length, Nat.le_refl _, hnum.1⟩
    · obtain ⟨n, hn, hidn⟩ := hseen id hid
      exact ⟨n, Nat.le_of_succ_le hn, hidn⟩

theorem initialLoop_progress {threadId : String} (hnumbered : Numbered agents records)
    {parent : CheckpointRecord} (hparent : parent ∈ records) (hdone : zeroProgress parent = false)
    (fuel : ℕ) : initialLoop threadId records (fuel + 1) (some parent.checkpointId) [] = false := by
  unfold initialLoop
  rw [if_neg List.not_mem_nil, hnumbered.recordsById hparent]
  dsimp only
  rw [if_pos hdone, ite_self]

def Follows (agents : Agents) (threadId : String) (current : Option ℕ) (parent : Option String)
    (rs : List CheckpointRecord) : Prop :=
  match current with
  | some c => parent = some (agents.ids c)
  | none => Rooted threadId rs ∧ parent = rs.head?.map CheckpointRecord.checkpointId

theorem Waits.continuous {threadId : String} {k bound : ℕ} {current : Option ℕ} {r : ThreadRecord}
    (h : Waits agents threadId k current bound r) (limit : ℕ) (record : CheckpointRecord)
    {rs : List CheckpointRecord} (hfollows : Follows agents threadId current record.parentCheckpointId rs)
    (hthread : record.threadId = threadId) (hnumbered : Numbered agents (record :: rs))
    (hlimit : current = none → rs.length < limit) :
    parentIsContinuous r.row ((record :: rs).take limit) record = true := by
  unfold parentIsContinuous
  rw [h.canonical]
  cases current with
  | some c =>
    show checkpointDescendsFrom _ _ _ = true
    unfold checkpointDescendsFrom descendsLoop
    rw [show record.parentCheckpointId = some (agents.ids c) from hfollows]
    dsimp only
    rw [if_neg List.not_mem_nil, if_pos rfl]
  | none =>
    obtain ⟨hroot, hparent⟩ := hfollows
    rw [List.take_of_length_le (hlimit rfl)]
    show checkpointHasInitialAncestry _ _ = true
    unfold checkpointHasInitialAncestry
    rw [hthread, hparent]
    exact initialLoop_rooted hnumbered rs (List.suffix_cons record rs) hnumbered.2 hroot _ _
      (by simp only [List.length_cons]; omega) (by simp)

/-! ### Promotions -/

def nodeAt (k : ℕ) : String := nodeOrder.getD k ""

theorem nodeOrder_getElem? {k : ℕ} (hk : k < 8) : nodeOrder[k]? = some (nodeAt k) := by
  revert k
  decide

theorem nextNodeAfter_nodeAt {k : ℕ} (hk : k < 8) : nextNodeAfter (nodeAt k) = nodeOrder[k + 1]? := by
  revert k
  decide

theorem nodeAt_mem {k : ℕ} (hk : k < 8) : nodeAt k ∈ nodeOrder := by
  revert k
  decide

/-- The store and the graph can hold the state. -/
def Setup.Fits (setup : Setup) (s : State) : Prop :=
  s.jsonSerializable = true ∧ setup.agents.size s ≤ setup.runtime.maxCheckpointBytes

def numbered (agents : Agents) (threadId : String) (n : ℕ) (parent : Option String) (s : State) :
    CheckpointRecord :=
  ⟨threadId, agents.ids n, parent, "", s, agents.size s⟩

theorem promotionCommand_fits {setup : Setup} {s : State} (hfits : setup.Fits s) (thread : RuntimeThread)
    (threadId : String) (n : ℕ) (parent : Option String) (node consumer key : String)
    (kind : PromotionEvent) :
    ∃ command, promotionCommand setup.runtime thread
        (numbered setup.agents threadId n parent s) node consumer key kind = .ok command ∧
      command.checkpointId = setup.agents.ids n ∧
      command.expectedCheckpointId = thread.currentCheckpointId ∧
      command.expectedStateVersion = thread.stateVersion ∧ command.nextNode = nextNodeAfter node := by
  refine ⟨⟨thread.threadId, thread.currentCheckpointId, thread.stateVersion, setup.agents.ids n,
    parent, node, nextNodeAfter node, setup.agents.size s, consumer, key, kind⟩, ?_, rfl, rfl, rfl, rfl⟩
  unfold promotionCommand numbered
  dsimp only
  rw [if_neg (by simp), if_neg (by simp [hfits.1]), if_neg (Nat.not_lt.mpr hfits.2)]

theorem promotionCommand_not_fits {setup : Setup} {s : State} (hfits : ¬ setup.Fits s)
    (thread : RuntimeThread) (threadId : String) (n : ℕ) (parent : Option String) (node consumer key : String)
    (kind : PromotionEvent) :
    ∃ code, promotionCommand setup.runtime thread
        (numbered setup.agents threadId n parent s) node consumer key kind = .error code := by
  unfold promotionCommand numbered
  dsimp only
  rw [if_neg (by simp)]
  by_cases hjson : s.jsonSerializable = false
  · exact ⟨_, by rw [if_pos hjson]⟩
  · have hsize : setup.runtime.maxCheckpointBytes < setup.agents.size s := by
      rw [← Nat.not_le]
      exact fun hle => hfits ⟨by simpa using hjson, hle⟩
    exact ⟨_, by rw [if_neg hjson, if_pos hsize]⟩

namespace Waits

variable {setup : Setup} {threadId : String} {k bound : ℕ} {current : Option ℕ} {r : ThreadRecord}
  {parent : Option String} {rs : List CheckpointRecord}

theorem latestBoundary_eq (h : Waits setup.agents threadId k current bound r) (hk : k < 8)
    (hfollows : Follows setup.agents threadId current parent rs) (hnumbered : Numbered setup.agents rs)
    (hlimit : current = none → rs.length < boundaryListing) :
    latestBoundary r.row (nodeAt k)
        ((numbered setup.agents threadId rs.length parent (setup.agents.stateAt (k + 1)) :: rs).take
          boundaryListing) =
      some (numbered setup.agents threadId rs.length parent (setup.agents.stateAt (k + 1))) := by
  have hcontinuous := h.continuous boundaryListing (numbered setup.agents threadId rs.length parent
    (setup.agents.stateAt (k + 1))) hfollows rfl ⟨rfl, hnumbered⟩ hlimit
  unfold latestBoundary
  refine List.find?_cons_of_pos ?_
  simp only [decide_eq_true_eq]
  refine ⟨h.owner.symm, setup.agents.stateAt_node k, ?_, ?_, hcontinuous⟩
  · rw [h.count]
    exact setup.agents.stateAt_count k
  · rw [h.next]
    exact nodeOrder_getElem? hk

theorem not_continuous (h : Waits setup.agents threadId k current bound r)
    (hcount : record.state.get "completed_node_count" ≠ .int (k + 1)) : isContinuous r.row record ≠ true := by
  intro hcont
  unfold isContinuous at hcont
  split at hcont
  · cases hcont
  · have hsame := (of_decide_eq_true hcont).2.2
    rw [h.count] at hsame
    exact hcount hsame

theorem reconcile_none (h : Waits setup.agents threadId k current bound r)
    (hcounts : ∀ record ∈ rs, record.state.get "completed_node_count" ≠ .int (k + 1)) (limit : ℕ)
    (consumer : String) : reconcileCandidate setup.runtime r.row (rs.take limit) consumer = .ok none := by
  have hnone : reconcileCandidates r.row (rs.take limit) = [] := by
    refine List.filter_eq_nil_iff.mpr fun record hrecord hcond => ?_
    have hcont := (of_decide_eq_true hcond).2.2.2
    exact h.not_continuous (hcounts record (List.mem_of_mem_take hrecord)) hcont
  unfold reconcileCandidate
  rw [hnone]

theorem reconcile_one (h : Waits setup.agents threadId k current bound r) (parent : Option String)
    (hk : k < 8) (hbound : bound ≤ rs.length) (hfits : setup.Fits (setup.agents.stateAt (k + 1)))
    (hfollows : Follows setup.agents threadId current parent rs) (hnumbered : Numbered setup.agents rs)
    (hcounts : ∀ record ∈ rs, record.state.get "completed_node_count" ≠ .int (k + 1)) {limit : ℕ}
    (hpositive : 0 < limit) (hlimit : current = none → rs.length < limit) (consumer : String) :
    ∃ command, reconcileCandidate setup.runtime r.row
        ((numbered setup.agents threadId rs.length parent (setup.agents.stateAt (k + 1)) :: rs).take
          limit) consumer = .ok (some command) ∧
      ∃ r', (ThreadOp.reconcile command).run consumer true r = .ok r' ∧
        Waits setup.agents threadId (k + 1) (some rs.length) (rs.length + 1) r' := by
  obtain ⟨limit, rfl⟩ := Nat.exists_eq_succ_of_ne_zero (Nat.ne_of_gt hpositive)
  have hcontinuous := h.continuous (limit + 1) (numbered setup.agents threadId rs.length parent
    (setup.agents.stateAt (k + 1))) hfollows rfl ⟨rfl, hnumbered⟩ hlimit
  have hnode : completedNode
      (numbered setup.agents threadId rs.length parent (setup.agents.stateAt (k + 1))) = nodeAt k := by
    unfold completedNode
    rw [show (numbered setup.agents threadId rs.length parent
      (setup.agents.stateAt (k + 1))).state.get "last_completed_node" = .str (nodeAt k) from
        setup.agents.stateAt_node k]
  have hone : reconcileCandidates r.row
      ((numbered setup.agents threadId rs.length parent (setup.agents.stateAt (k + 1)) :: rs).take
        (limit + 1)) =
      [numbered setup.agents threadId rs.length parent (setup.agents.stateAt (k + 1))] := by
    unfold reconcileCandidates
    rw [List.take_succ_cons, List.filter_cons_of_pos, List.filter_eq_nil_iff.mpr]
    · intro record hrecord hcond
      have hcont := (of_decide_eq_true hcond).2.2.2
      exact h.not_continuous (hcounts record (List.mem_of_mem_take hrecord)) hcont
    · refine decide_eq_true ⟨h.owner.symm, ?_, hcontinuous, ?_⟩
      · rw [h.canonical]
        intro hsame
        obtain ⟨j, hj, hids⟩ := Option.map_eq_some_iff.mp hsame.symm
        have hlt := h.before j hj
        have hjn := setup.agents.ids_injective hids
        omega
      · unfold isContinuous
        rw [h.next, nodeOrder_getElem? hk]
        refine decide_eq_true ⟨setup.agents.stateAt_node k, nodeAt_mem hk, ?_⟩
        rw [h.count]
        exact setup.agents.stateAt_count k
  obtain ⟨command, hcommand, hid, hexpected, hversion, hnext⟩ := promotionCommand_fits hfits r.row
    threadId rs.length parent (nodeAt k) consumer ("reconcile:" ++ setup.agents.ids rs.length)
    .reconciliation
  refine ⟨command, ?_, ?_⟩
  · unfold reconcileCandidate
    rw [hone]
    dsimp only
    rw [hnode]
    show Except.map some (promotionCommand _ _ _ _ _ ("reconcile:" ++ setup.agents.ids rs.length) _) = _
    rw [hcommand]
    rfl
  · refine h.promote hbound hid hexpected hversion ?_ (Or.inr ?_)
    · rw [← nextNodeAfter_nodeAt hk]
      exact hnext
    · show "reconcile:" ++ command.checkpointId = _
      rw [hid]

theorem runner_promotes (h : Waits setup.agents threadId k current bound r) (n : ℕ) (parent : Option String)
    (hk : k < 8) (hbound : bound ≤ n) (hfits : setup.Fits (setup.agents.stateAt (k + 1)))
    (consumer : String) :
    ∃ command, runnerCommand setup.runtime r.row
        (numbered setup.agents threadId n parent (setup.agents.stateAt (k + 1))) (nodeAt k) consumer =
          .ok command ∧
      ∃ r', (ThreadOp.promote command).run consumer true r = .ok r' ∧
        Waits setup.agents threadId (k + 1) (some n) (n + 1) r' := by
  obtain ⟨command, hcommand, hid, hexpected, hversion, hnext⟩ := promotionCommand_fits hfits r.row
    threadId n parent (nodeAt k) consumer ("checkpoint:" ++ setup.agents.ids n) .checkpointPromoted
  refine ⟨command, hcommand, h.promote hbound hid hexpected hversion ?_ (Or.inl ?_)⟩
  · rw [← nextNodeAfter_nodeAt hk]
    exact hnext
  · show "checkpoint:" ++ command.checkpointId = _
    rw [hid]

end Waits

end CountyFlow.Worker
