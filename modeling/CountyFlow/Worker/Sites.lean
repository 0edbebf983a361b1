import Mathlib.Data.Nat.Find
import CountyFlow.Worker.Passage

/-!
# The points of a crash

What the first worker of a message leaves behind, whenever it crashes: nothing in the ledger, a thread
with some of its nodes promoted and at most one checkpoint more, an outcome in the tables, or an outcome
in the ledger.
-/

namespace CountyFlow.Worker

open CountyFlow.Core CountyFlow.Lib CountyFlow.Runtime

/-! ### The points of a crash -/

/-- The checkpoints of a first run: before the input, with it, and behind each node. -/
def recordAt (agents : Agents) (threadId : String) : ℕ → CheckpointRecord
  | 0 => numbered agents threadId 0 none []
  | j + 1 => numbered agents threadId (j + 1) (some (agents.ids j)) (agents.stateAt j)

/-- The first of them, the newest first. -/
def history (agents : Agents) (threadId : String) : ℕ → List CheckpointRecord
  | 0 => []
  | size + 1 => recordAt agents threadId size :: history agents threadId size

variable {size : ℕ}

section History

variable (agents : Agents) (threadId : String)

@[simp] theorem history_length (size : ℕ) : (history agents threadId size).length = size := by
  induction size with
  | zero => rfl
  | succ size ih =>
    show (history agents threadId size).length + 1 = size + 1
    rw [ih]

theorem history_numbered (size : ℕ) : Numbered agents (history agents threadId size) := by
  induction size with
  | zero => trivial
  | succ size ih =>
    refine ⟨?_, ih⟩
    rw [history_length]
    cases size with
    | zero => rfl
    | succ size => rfl

theorem history_next {k : ℕ} {parent : String} (hparent : parent = agents.ids (k + 1)) :
    numbered agents threadId (history agents threadId (k + 2)).length (some parent)
        (agents.stateAt (k + 1)) :: history agents threadId (k + 2) =
      history agents threadId (k + 3) := by
  rw [hparent, history_length]
  rfl

theorem mem_history {record : CheckpointRecord}
    (h : record ∈ history agents threadId size) : ∃ j < size, record = recordAt agents threadId j := by
  induction size with
  | zero => cases h
  | succ size ih =>
    rcases List.mem_cons.mp h with rfl | h
    · exact ⟨size, Nat.lt_succ_self size, rfl⟩
    · obtain ⟨j, hj, heq⟩ := ih h
      exact ⟨j, Nat.lt_succ_of_lt hj, heq⟩

theorem history_counts {k : ℕ} (hsize : size ≤ k + 2) :
    ∀ record ∈ history agents threadId size,
      record.state.get "completed_node_count" ≠ .int (k + 1) := by
  intro record hrecord hcount
  obtain ⟨j, hj, rfl⟩ := mem_history agents threadId hrecord
  match j, hj, hcount with
  | 0, _, hcount => cases hcount
  | 1, _, hcount =>
    have hnone : agents.input.get "completed_node_count" = .int (k + 1) := hcount
    rw [agents.input_zero] at hnone
    cases hnone
  | j + 2, hj, hcount =>
    have hint : (agents.stateAt (j + 1)).get "completed_node_count" = .int (k + 1) := hcount
    rw [agents.stateAt_count] at hint
    have heq := Value.int.inj hint
    omega

theorem history_opened (hsize : size ≤ 2) :
    Rooted threadId (history agents threadId size) ∧
      ∀ record ∈ history agents threadId size, record.state = [] ∨ record.state = agents.input := by
  have hinput : zeroProgress (recordAt agents threadId 1) = true :=
    decide_eq_true (Or.inl agents.input_zero)
  match size, hsize with
  | 0, _ => exact ⟨trivial, nofun⟩
  | 1, _ =>
    refine ⟨⟨rfl, rfl, rfl, rfl, trivial⟩, fun record hrecord => ?_⟩
    rw [List.mem_singleton.mp hrecord]
    exact .inl rfl
  | 2, _ =>
    refine ⟨⟨rfl, rfl, hinput, rfl, rfl, rfl, rfl, rfl, trivial⟩, fun record hrecord => ?_⟩
    rcases List.mem_cons.mp hrecord with rfl | hrecord
    · exact .inr rfl
    · rw [List.mem_singleton.mp hrecord]
      exact .inl rfl

end History

theorem nodeOrder_idxOf {k : ℕ} (hk : k < 8) : nodeOrder.idxOf (nodeAt k) = k := by
  revert k
  decide

/-- The checkpoint that is canonical behind the first nodes. -/
def currentAt (k : ℕ) : Option ℕ := if k = 0 then none else some (k + 1)

structure Unregistered (task : DispatchTaskMessage) (db : Db) : Prop where
  row : db.tasks.find task.taskId = none
  key : ∀ row ∈ db.tasks.rows, row.idempotencyKey ≠ task.idempotencyKey
  name : task.taskId ≠ ""
  thread : db.threads task.taskId = none
  dispatch : db.dispatches.find task.taskId = none
  audits : (db.audits.filter fun a => a.taskId = task.taskId) = []

/-- The thread has come to the end of its nodes. -/
structure Exhausted (r : ThreadRecord) : Prop where
  next : r.row.nextNode = none
  canonical : r.row.currentCheckpointId ≠ none
  status : r.row.status = .stable ∨ r.row.status = .terminal

theorem Waits.exhausted {agents : Agents} {threadId : String} {c bound : ℕ} {r : ThreadRecord}
    (h : Waits agents threadId 8 (some c) bound r) : Exhausted r := by
  have hnext : r.row.nextNode = none := h.next
  refine ⟨hnext, ?_, Or.inl (h.rests hnext)⟩
  rw [h.canonical]
  nofun

theorem Marked.exhausted {r r' : ThreadRecord} (h : Marked r r') (hr : Exhausted r) : Exhausted r' := by
  rcases h with rfl | ⟨hterminal, hnext, hcurrent⟩
  · exact hr
  · refine ⟨hnext, ?_, Or.inr hterminal⟩
    rw [hcurrent]
    exact hr.canonical

/-- Where a worker can be when it crashes. -/
inductive Site (setup : Setup) (msg : StreamMessage) (n : ℕ) (m : Machine) : Prop
  | unregistered : Unregistered msg.task m.world.db →
      m.world.stream msg.messageId = some ⟨msg.task, .pending n⟩ → m.records = [] →
      Site setup msg n m
  | working {status : TaskStatus} {r : ThreadRecord} {d : Option Dispatch} {k size : ℕ} :
      status.terminal = false →
      Held msg n m (history setup.agents r.row.threadId size) status r d [] →
      Waits setup.agents r.row.threadId k (currentAt k) (k + 2) r → size ≤ k + 3 → size ≤ 9 →
      (k = 0 ∨ k + 2 ≤ size) → Site setup msg n m
  | settled {status : TaskStatus} {r : ThreadRecord} {threadId : String} {size : ℕ}
      {dispatch : Dispatch} {audit : AuditRecord} : status.terminal = false → size = 9 ∨ size = 10 →
      Held msg n m (history setup.agents threadId size) status r (some dispatch) [audit] →
      audit.dispatchId = dispatch.id →
      audit.result = setup.agents.verdict (setup.agents.stateAt 7) → Site setup msg n m
  | stranded {status : TaskStatus} {r : ThreadRecord} {threadId : String} :
      status.terminal = false →
      Held msg n m (history setup.agents threadId 10) status r none [] →
      Waits setup.agents threadId 7 (some 8) 9 r ∨ Exhausted r → Site setup msg n m
  | closed {T : TaskStatus} : setup.agents.outcome = some T → Closed msg n T m → Site setup msg n m

theorem Site.later {setup : Setup} {msg : StreamMessage} {n : ℕ} {m : Machine} (now pick : ℕ)
    (h : Site setup msg n m) : Site { setup with now := now, pick := pick } msg n m := by
  cases h with
  | unregistered htask hstream hrecords => exact .unregistered htask hstream hrecords
  | working hstatus hheld hwaits hsize hnine hplace =>
    exact .working hstatus hheld hwaits hsize hnine hplace
  | settled hstatus hsize hheld haudit hresult => exact .settled hstatus hsize hheld haudit hresult
  | stranded hstatus hheld hover => exact .stranded hstatus hheld hover
  | closed houtcome hclosed => exact .closed houtcome hclosed

/-- The nodes run through, and their outcome is this. -/
def Setup.Reaches (setup : Setup) (T : TaskStatus) : Prop :=
  setup.agents.outcome = some T ∧ ∀ i < 8, setup.Fits (setup.agents.stateAt (i + 1))

theorem Site.audited {setup : Setup} {msg : StreamMessage} {n : ℕ} {m : Machine} {status : TaskStatus}
    {r : ThreadRecord} {threadId : String} {d : Option Dispatch} (hstatus : status.terminal = false)
    (hsize : size = 9 ∨ size = 10)
    (h : Held msg n m (history setup.agents threadId size) status r d
      (setup.agents.audited msg.task d))
    (hnone : Held msg n m (history setup.agents threadId size) status r none [] →
      Site setup msg n m) : Site setup msg n m := by
  cases d with
  | none => exact hnone h
  | some dispatch => exact .settled hstatus hsize h rfl rfl

theorem exists_first {Q : ℕ → Prop} {b : ℕ} (h : ¬ ∀ i < b, Q i) : ∃ i, i < b ∧ ¬ Q i ∧ ∀ j < i, Q j := by
  classical
  have hex : ∃ i, i < b ∧ ¬ Q i := by
    by_contra hnone
    exact h fun i hi => by_contra fun hq => hnone ⟨i, hi, hq⟩
  obtain ⟨hlt, hbad⟩ := Nat.find_spec hex
  refine ⟨Nat.find hex, hlt, hbad, fun j hj => ?_⟩
  by_contra hq
  exact Nat.find_min hex hj ⟨Nat.lt_trans hj hlt, hq⟩

namespace Machine

variable (setup : Setup) (config : WorkerConfig) (p : ℕ) {msg : StreamMessage} {n : ℕ} {m : Machine}
  {status : TaskStatus} {r : ThreadRecord} {state : IdempotencyState} {d : Option Dispatch} {k : ℕ}
  {pos : Position}

/-! ### The first run -/

theorem first_node (hstatus : status.terminal = false) (hk : k < 8)
    (h : Ready setup msg n m state k (history setup.agents r.row.threadId (k + 2)) (currentAt k)
      status r d [] pos) (hparent : pos.parent = setup.agents.ids (k + 1)) :
    Site setup msg n m ∧
    (∀ m', Held msg n m' (history setup.agents r.row.threadId (k + 2)) status r
      (setup.agents.dispatchAfter msg.task k d) (setup.agents.auditsAfter msg.task k d []) →
      Site setup msg n m') ∧
    (∀ m' r', Waits setup.agents r.row.threadId k (currentAt k) (k + 2) r' →
      Held msg n m' (history setup.agents r.row.threadId (k + 3)) status r'
        (setup.agents.dispatchAfter msg.task k d) (setup.agents.auditsAfter msg.task k d []) →
      Site setup msg n m') ∧
    (∀ m' r', Waits setup.agents r.row.threadId (k + 1) (some (k + 2)) (k + 3) r' →
      Held msg n m' (history setup.agents r.row.threadId (k + 3)) status r'
        (setup.agents.dispatchAfter msg.task k d) (setup.agents.auditsAfter msg.task k d []) →
      Site setup msg n m') := by
  have hwaits := h.waits
  rw [history_length] at hwaits
  have hplace : k = 0 ∨ k + 2 ≤ k + 2 := Or.inr (Nat.le_refl _)
  refine ⟨.working hstatus h.held hwaits (by omega) (by omega) (by omega), ?_⟩
  by_cases haudit : k = 7
  · subst haudit
    refine ⟨fun m' hheld => ?_, fun m' r' hwaits' hheld => ?_, fun m' r' hwaits' hheld => ?_⟩
    · refine Site.audited hstatus (Or.inl rfl) hheld fun hnone => ?_
      exact .working hstatus hnone hwaits (by omega) (by omega) (by omega)
    · exact Site.audited hstatus (Or.inr rfl) hheld fun hnone =>
        .stranded hstatus hnone (Or.inl hwaits')
    · exact Site.audited hstatus (Or.inr rfl) hheld fun hnone =>
        .stranded hstatus hnone (Or.inr hwaits'.exhausted)
  · have hnone : setup.agents.auditsAfter msg.task k d [] = [] := if_neg haudit
    rw [hnone]
    refine ⟨fun m' hheld => ?_, fun m' r' hwaits' hheld => ?_, fun m' r' hwaits' hheld => ?_⟩
    · exact .working hstatus hheld hwaits (by omega) (by omega) (by omega)
    · have howner := hwaits'.owner
      rw [← howner] at hheld hwaits'
      exact .working hstatus hheld hwaits' (by omega) (by omega) (by omega)
    · have howner := hwaits'.owner
      rw [← howner] at hheld hwaits'
      exact .working hstatus hheld hwaits' (by omega) (by omega) (by omega)

theorem first_nodes (hstatus : status.terminal = false)
    (h : Ready setup msg n m state 0 (history setup.agents r.row.threadId 2) none status r d [] pos)
    (hparent : pos.parent = setup.agents.ids 1) :
    ∀ k, k ≤ 7 → (∀ i < k, setup.Fits (setup.agents.stateAt (i + 1))) →
      ∃ m' r' d' pos', Passes setup config p (Site setup msg n) m m' ∧
        Ready setup msg n m' state k (history setup.agents r'.row.threadId (k + 2)) (currentAt k)
          status r' d' [] pos' ∧ pos'.parent = setup.agents.ids (k + 1) := by
  intro k
  induction k with
  | zero =>
    intro _ _
    have hsite := first_node setup hstatus (k := 0) (by decide) h hparent
    exact ⟨m, r, d, pos, .here hsite.1, h, hparent⟩
  | succ k ih =>
    intro hk hfits
    obtain ⟨m₁, r₁, d₁, pos₁, hpasses, hready, hparent₁⟩ :=
      ih (by omega) fun i hi => hfits i (by omega)
    obtain ⟨hhere, hexecuted, hsaved, hpromoted⟩ :=
      first_node setup hstatus (by omega) hready hparent₁
    have hnext := history_next setup.agents r₁.row.threadId hparent₁
    have hsize := history_length setup.agents r₁.row.threadId (k + 2)
    obtain ⟨m₂, r₂, pos₂, hpasses₂, hready₂, hthread, hparent₂, -⟩ := node_passes setup config p
      (by omega) hready (hfits k (by omega)) hhere hexecuted (by rw [hnext, hsize]; exact hsaved)
      (by rw [hnext, hsize]; exact hpromoted)
    have hnone : setup.agents.auditsAfter msg.task k d₁ [] = [] := if_neg (by omega)
    rw [hnext, hsize, hnone, ← hthread] at hready₂
    rw [hsize] at hparent₂
    exact ⟨m₂, r₂, _, pos₂, hpasses.trans hpasses₂, hready₂, hparent₂⟩

/-- From the first node of its thread the worker comes to an end, through sites only. -/
theorem first_run (hstatus : status.terminal = false)
    (h : Ready setup msg n m state 0 (history setup.agents r.row.threadId 2) none status r d [] pos)
    (hparent : pos.parent = setup.agents.ids 1) :
    ∃ m', Passes setup config p (Site setup msg n) m m' ∧ (∃ result, m'.worker = .done result) ∧
      ((m'.world.db.status msg.task.taskId = some status ∧
        ∀ T, ¬ setup.Reaches T) ∨
        ∃ T, setup.Reaches T ∧ Completed msg.messageId msg.task T m') := by
  by_cases hfits : ∀ i < 8, setup.Fits (setup.agents.stateAt (i + 1))
  · obtain ⟨m₁, r₁, d₁, pos₁, hpasses₁, hready₁, hparent₁⟩ := first_nodes setup config p hstatus h
      hparent 7 (Nat.le_refl 7) fun i hi => hfits i (by omega)
    obtain ⟨hhere, hexecuted, hsaved, hpromoted⟩ :=
      first_node setup hstatus (by decide) hready₁ hparent₁
    have hnext := history_next setup.agents r₁.row.threadId hparent₁
    have hsize := history_length setup.agents r₁.row.threadId 9
    obtain ⟨m₂, r₂, pos₂, hpasses₂, hready₂, hthread, -, hresult⟩ := node_passes setup config p
      (by decide) hready₁ (hfits 7 (by decide)) hhere hexecuted (by rw [hnext, hsize]; exact hsaved)
      (by rw [hnext, hsize]; exact hpromoted)
    rw [hnext] at hready₂
    have hfinal := setup.agents.terminalState_audited hready₁.result
    rw [← hresult] at hfinal
    have hexhausted := hready₂.waits.exhausted
    have hheld : ∀ m' r', Marked r₂ r' → Held msg n m' (history setup.agents r₁.row.threadId 10) status
        r' d₁ (setup.agents.audited msg.task d₁) → Site setup msg n m' :=
      fun m' r' hmarked hheld => Site.audited hstatus (Or.inr rfl) hheld fun hnone =>
        .stranded hstatus hnone (Or.inr (hmarked.exhausted hexhausted))
    have hhere₂ := hheld m₂ r₂ (Or.inl rfl) hready₂.held
    have hfinish := finish_eq setup config p hready₂
    cases houtcome : setup.agents.outcome with
    | none =>
      rw [houtcome] at hfinal
      obtain ⟨result, hreleasing⟩ := afterGraph_none msg state hfinal
        (m₂.world.db.threads msg.task.taskId)
      rw [hreleasing] at hfinish
      have hheld₂ := hready₂.held
      obtain ⟨m', hend, hdone, hkeeps⟩ := releasing_passes setup config p
        (P := Site setup msg n) (m := ⟨m₂.world, m₂.records, .releasing msg result, .outside⟩) rfl
        fun m' hkeeps => hheld m' r₂ (Or.inl rfl)
          (hheld₂.keeps ⟨hkeeps.db, hkeeps.stream, hkeeps.records⟩)
      refine ⟨m', hpasses₁.trans (hpasses₂.trans (.next hhere₂ hfinish hend)), hdone,
        Or.inl ⟨?_, fun T hreaches => ?_⟩⟩
      · rw [hkeeps.db]
        exact hheld₂.shows.status_eq
      · rw [hreaches.1] at houtcome
        cases houtcome
    | some T =>
      rw [houtcome] at hfinal
      obtain ⟨manualReview, errorCode, hlooking⟩ := afterGraph_some msg state
        hfinal (m₂.world.db.threads msg.task.taskId)
      rw [hlooking] at hfinish
      have hheld₂ := hready₂.held
      obtain ⟨m', hend, hdone, hcompleted⟩ := closing_passes setup config p
        (P := Site setup msg n) (m := ⟨m₂.world, m₂.records,
          .looking msg (.fresh T state manualReview errorCode), .outside⟩) rfl rfl
        (hheld₂.keeps ⟨rfl, rfl, rfl⟩) nofun hheld fun m' hclosed => .closed houtcome hclosed
      exact ⟨m', hpasses₁.trans (hpasses₂.trans (.next hhere₂ hfinish hend)), hdone,
        Or.inr ⟨T, ⟨houtcome, hfits⟩, hcompleted⟩⟩
  · -- the first node whose checkpoint cannot be promoted ends the run
    obtain ⟨i, hi, hbad, hbefore⟩ := exists_first hfits
    obtain ⟨m₁, r₁, d₁, pos₁, hpasses₁, hready₁, hparent₁⟩ := first_nodes setup config p hstatus h
      hparent i (by omega) hbefore
    obtain ⟨hhere, hexecuted, hsaved, -⟩ := first_node setup hstatus hi hready₁ hparent₁
    have hnext := history_next setup.agents r₁.row.threadId hparent₁
    have hsize := history_length setup.agents r₁.row.threadId (i + 2)
    obtain ⟨m₂, r₂, hpasses₂, hw₂, hr₂, hheld₂, hthread, hwaits₂⟩ := saving_passes setup config p hi
      hready₁ hhere hexecuted (by rw [hnext, hsize]; exact hsaved)
    rw [hnext] at hheld₂
    have hsite : ∀ m', m₂.Keeps m' → Site setup msg n m' := by
      rw [hsize] at hwaits₂
      exact fun m' hkeeps => hsaved m' r₂ hwaits₂ (hheld₂.keeps hkeeps)
    have hbroken : m₂.step setup config p = m₂.broken setup config p := by
      have hheld := hheld₂
      have hwaits := hwaits₂
      have hfollows := hready₁.follows
      rw [← hnext, ← hthread] at hheld
      rw [← hthread] at hwaits hfollows
      exact promote_broken setup config p hi hw₂ hr₂ rfl hheld hwaits hfollows
        (history_numbered _ _ _) (hthread ▸ hready₁.short) hbad
    rw [broken_eq setup config p hw₂] at hbroken
    obtain ⟨m', hend, hdone, hkeeps⟩ := releasing_passes setup config p (P := Site setup msg n)
      (m := ⟨m₂.world, m₂.records, .releasing msg (some (WorkerState.unacknowledged msg
        (some "FAILED") (some "GRAPH_EXECUTION_ERROR") (some state))), .outside⟩) rfl
      fun m' hkeeps => hsite m' ⟨hkeeps.db, hkeeps.stream, hkeeps.records⟩
    refine ⟨m', hpasses₁.trans (hpasses₂.trans (.next (hsite m₂ ⟨rfl, rfl, rfl⟩) hbroken hend)),
      hdone, Or.inl ⟨?_, fun T hreaches => hfits hreaches.2⟩⟩
    rw [hkeeps.db]
    exact hheld₂.shows.status_eq

/-- So it does from a thread that has been mended. -/
theorem mended_run (hm : m.worker = .mending msg state) (hstatus : status.terminal = false)
    (h : Held msg n m [] status r d []) (hwaits : Waits setup.agents r.row.threadId 0 none 2 r) :
    ∃ m', Passes setup config p (Site setup msg n) m m' ∧ (∃ result, m'.worker = .done result) ∧
      ((m'.world.db.status msg.task.taskId = some status ∧ ∀ T, ¬ setup.Reaches T) ∨
        ∃ T, setup.Reaches T ∧ Completed msg.messageId msg.task T m') := by
  have hsite : ∀ m' size, size ≤ 2 → Held msg n m' (history setup.agents r.row.threadId size) status r
      d [] → Site setup msg n m' :=
    fun m' size hsize hheld => .working hstatus hheld hwaits (by omega) (by omega) (Or.inl rfl)
  have hkept : ∀ m', m.Keeps m' → Site setup msg n m' :=
    fun m' hkeeps => hsite m' 0 (by omega) (h.keeps hkeeps)
  have hmend := mending_passes setup config p hm h hwaits.live (by rw [hwaits.next]; nofun)
    (hwaits.reconcile_none (history_counts setup.agents r.row.threadId (Nat.zero_le 2)) _ _)
  have hlatest : (⟨m.world, m.records, .running msg state, .outside⟩ : Machine).latest = [] := by
    unfold latest
    rw [h.records]
    rfl
  obtain ⟨m₁, pos, hpasses, hready, hparent⟩ := opening_passes setup config p
    (P := Site setup msg n) (m := ⟨m.world, m.records, .running msg state, .outside⟩) rfl rfl
    (h.keeps ⟨rfl, rfl, rfl⟩) hwaits trivial trivial nofun (by decide)
    (fun m' hkeeps => hkept m' ⟨hkeeps.db, hkeeps.stream, hkeeps.records⟩)
    (fun m' hheld => hsite m' 1 (by decide) (by rw [hlatest] at hheld; exact hheld))
    (fun m' hheld => hsite m' 2 (by decide) (by rw [hlatest] at hheld; exact hheld))
  rw [hlatest] at hready
  obtain ⟨m', hend, hdone, hresult⟩ := first_run setup config p hstatus hready hparent
  exact ⟨m', .next (hkept m ⟨rfl, rfl, rfl⟩) hmend (hpasses.trans hend), hdone, hresult⟩

end Machine

theorem Unregistered.begin_eq {task : DispatchTaskMessage} {db : Db} (h : Unregistered task db) :
    ∃ d db', db.begin task.taskId task.orderId task.idempotencyKey true = .ok (d, db') ∧
      d.state = .new ∧
      Shows task db' .pending (ThreadRecord.create task.taskId ("cf:dispatch:" ++ task.taskId)) none
        [] := by
  have hkey : db.byKey task.idempotencyKey = none := by
    refine List.find?_eq_none.mpr fun row hrow hsame => ?_
    exact h.key row hrow (by simpa using hsame)
  have hexisting : db.existing task.taskId task.idempotencyKey = .ok none := by
    unfold Db.existing
    rw [h.row, hkey]
    rfl
  obtain ⟨tasks, hadd⟩ := Table.add_of_find_none (t := db.tasks)
    (r := ⟨task.taskId, task.orderId, task.idempotencyKey, .pending, none, none⟩) h.row
  refine ⟨⟨.new, task.taskId, task.idempotencyKey, none, true, "Ledger created."⟩, { db with
    tasks := tasks
    threads := Function.update db.threads task.taskId
      (some (ThreadRecord.create task.taskId ("cf:dispatch:" ++ task.taskId))) }, ?_, rfl, ?_⟩
  · unfold Db.begin Db.threadIdForPersistedTask
    rw [hexisting, if_neg h.name]
    dsimp only
    rw [hadd]
    dsimp only
    rw [if_neg (by simp [h.thread])]
  · refine ⟨⟨⟨task.taskId, task.orderId, task.idempotencyKey, .pending, none, none⟩, ?_, rfl, rfl⟩, ?_,
      Function.update_self _ _ _, h.dispatch, h.audits⟩
    · show tasks.find task.taskId = _
      rw [Table.find_add hadd, if_pos rfl]
    · intro row hrow hsame
      have hrow' : row ∈ tasks.rows := hrow
      rw [Table.rows_add hadd] at hrow'
      rcases List.mem_append.mp hrow' with hold | hnew
      · exact absurd hsame (h.key row hold)
      · rw [List.mem_singleton.mp hnew]

namespace Machine

variable (setup : Setup) (config : WorkerConfig) (p : ℕ) {msg : StreamMessage} {n : ℕ} {m : Machine}
  {P : Machine → Prop} {rs : List CheckpointRecord} {status : TaskStatus} {r : ThreadRecord}
  {d : Option Dispatch}

/-- So it does with a task that is not registered yet. -/
theorem entered_run (hm : m.worker = .acquiring msg) (hfree : m.world.locks msg.task.idempotencyKey = none)
    (h : Unregistered msg.task m.world.db)
    (hstream : m.world.stream msg.messageId = some ⟨msg.task, .pending n⟩) (hrecords : m.records = []) :
    ∃ m', Passes setup config p (Site setup msg n) m m' ∧ (∃ result, m'.worker = .done result) ∧
      ((m'.world.db.status msg.task.taskId = some .processing ∧ ∀ T, ¬ setup.Reaches T) ∨
        ∃ T, setup.Reaches T ∧ Completed msg.messageId msg.task T m') := by
  obtain ⟨decision, db, hbegin, hnew, hshows⟩ := h.begin_eq
  have hwaits := (Waits.create setup.agents msg.task.taskId
    ("cf:dispatch:" ++ msg.task.taskId)).mono (Nat.zero_le 2)
  let created := ThreadRecord.create msg.task.taskId ("cf:dispatch:" ++ msg.task.taskId)
  have hentered : ∀ (m' : Machine) (status : TaskStatus), status.terminal = false →
      Held msg n m' (history setup.agents created.row.threadId 0) status created none [] →
      Site setup msg n m' :=
    fun m' status hstatus hheld => .working (k := 0) hstatus hheld hwaits (by omega) (by omega)
      (Or.inl rfl)
  obtain ⟨m₁, hpasses, hworker, hdb, hstream₁, hrecords₁⟩ := acquiring_passes setup config p
    (P := Site setup msg n) hm hfree hbegin
    (fun m' hkeeps => .unregistered (by rw [hkeeps.db]; exact h)
      (by rw [hkeeps.stream]; exact hstream) (by rw [hkeeps.records]; exact hrecords))
    (fun m' hdb' hstream' hrecords' => hentered m' .pending rfl
      ⟨by rw [hdb']; exact hshows, (congrFun hstream' _).trans hstream, hrecords'.trans hrecords,
      hwaits.honest⟩)
  have hstarting : m₁.worker = .starting msg := by
    rw [hworker]
    unfold WorkerState.afterBegin
    rw [hnew]
  obtain ⟨db', hset, hshows'⟩ := hshows.setStatus .processing true false setup.now
  have hheld : Held msg n m₁ [] .pending created none [] :=
    ⟨by rw [hdb]; exact hshows, (congrFun hstream₁ _).trans hstream, hrecords₁.trans hrecords, hwaits.honest⟩
  have hheld' : ∀ worker, Held msg n ⟨{ m₁.world with db := db' }, m₁.records, worker, .outside⟩ []
      .processing created none [] := fun worker => ⟨hshows', hheld.stream, hheld.records, hwaits.honest⟩
  obtain ⟨m', hend, hdone, hresult⟩ := mended_run setup config p
    (m := ⟨{ m₁.world with db := db' }, m₁.records, .mending msg .new, .outside⟩) rfl rfl
    (hheld' _) hwaits
  refine ⟨m', hpasses.trans (.plain (.loading msg .new) { m₁.world with db := db' } hstarting
    (fun _ _ => by simp) (hentered m₁ .pending rfl hheld) ?_
    (.plain (.mending msg .new) { m₁.world with db := db' } rfl (fun _ _ => by simp)
      (hentered _ .processing rfl (hheld' _)) (by simp [WorkerState.step, calm]) hend)), hdone, hresult⟩
  simp [WorkerState.step, calm, hdb, Db.markProcessing, hset]

theorem acquired_passes {as : List AuditRecord} (hm : m.worker = .acquiring msg)
    (hfree : m.world.locks msg.task.idempotencyKey = none) (hstatus : status.terminal = false)
    (h : Held msg n m rs status r d as) (hP : ∀ m', m.Keeps m' → P m') :
    ∃ m', Passes setup config p P m m' ∧ m'.worker = .reconciling msg ∧ m.Keeps m' := by
  obtain ⟨row, hrow, hbegin⟩ := h.shows.begin_eq
  have hdecision : WorkerState.afterBegin msg (Db.decision row) = .reconciling msg := by
    unfold Db.decision
    rw [hrow, hstatus]
    rfl
  obtain ⟨m₁, hpasses, hworker, hdb, hstream, hrecords⟩ := acquiring_passes setup config p hm hfree
    hbegin hP fun m' hdb hstream hrecords => hP m' ⟨hdb, hstream, hrecords⟩
  rw [hdecision] at hworker
  exact ⟨m₁, hpasses, hworker, hdb, hstream, hrecords⟩

theorem begun_passes (hm : m.worker = .acquiring msg) (hfree : m.world.locks msg.task.idempotencyKey = none)
    (hstatus : status.terminal = false) (h : Held msg n m rs status r d []) (hP : ∀ m', m.Keeps m' → P m') :
    ∃ m', Passes setup config p P m m' ∧ m'.worker = .mending msg .inProgress ∧ m.Keeps m' := by
  obtain ⟨m₁, hpasses₁, hw₁, hkeeps₁⟩ := acquired_passes setup config p hm hfree hstatus h hP
  obtain ⟨m₂, hpasses₂, hw₂, hkeeps₂⟩ := reconciling_passes setup config p hw₁ (h.keeps hkeeps₁)
    fun m' hkeeps => hP m' (hkeeps₁.trans hkeeps)
  exact ⟨m₂, hpasses₁.trans hpasses₂, hw₂, hkeeps₁.trans hkeeps₂⟩

end Machine

/-- A message that is delivered for the first time: the task is not in the ledger, or it is there as it
was submitted. -/
structure Fresh (msg : StreamMessage) (n : ℕ) (m : Machine) : Prop where
  worker : m.worker = .acquiring msg
  free : m.world.locks msg.task.idempotencyKey = none
  stream : m.world.stream msg.messageId = some ⟨msg.task, .pending n⟩
  records : m.records = []
  task : Unregistered msg.task m.world.db ∨ ∃ status, status.terminal = false ∧
    Shows msg.task m.world.db status
      (ThreadRecord.create msg.task.taskId ("cf:dispatch:" ++ msg.task.taskId)) none []

namespace Machine

variable (setup : Setup) (config : WorkerConfig) (p : ℕ) {msg : StreamMessage} {n : ℕ} {m : Machine}

theorem fresh_run (h : Fresh msg n m) :
    ∃ m', Passes setup config p (Site setup msg n) m m' ∧ (∃ result, m'.worker = .done result) ∧
      ((∃ status, m'.world.db.status msg.task.taskId = some status ∧ status.terminal = false) ∨
        ∃ T, setup.Reaches T ∧ Completed msg.messageId msg.task T m') := by
  rcases h.task with htask | ⟨status, hstatus, hshows⟩
  · obtain ⟨m', hpasses, hdone, hresult⟩ := entered_run setup config p h.worker h.free htask h.stream
      h.records
    refine ⟨m', hpasses, hdone, hresult.imp (fun hprocessing => ?_) id⟩
    exact ⟨.processing, hprocessing.1, rfl⟩
  · have hwaits := (Waits.create setup.agents msg.task.taskId
      ("cf:dispatch:" ++ msg.task.taskId)).mono (Nat.zero_le 2)
    let created := ThreadRecord.create msg.task.taskId ("cf:dispatch:" ++ msg.task.taskId)
    have hheld : Held msg n m (history setup.agents created.row.threadId 0) status created none [] :=
      ⟨hshows, h.stream, h.records, hwaits.honest⟩
    obtain ⟨m₁, hpasses₁, hw₁, hkeeps⟩ := begun_passes setup config p (P := Site setup msg n)
      h.worker h.free hstatus hheld fun m' hkeeps =>
        .working (k := 0) hstatus (hheld.keeps hkeeps) hwaits (by omega) (by omega) (Or.inl rfl)
    obtain ⟨m', hpasses₂, hdone, hresult⟩ := mended_run setup config p hw₁ hstatus
      (hheld.keeps hkeeps) hwaits
    refine ⟨m', hpasses₁.trans hpasses₂, hdone, hresult.imp (fun hsame => ?_) id⟩
    exact ⟨status, hsame.1, hstatus⟩

end Machine

end CountyFlow.Worker
