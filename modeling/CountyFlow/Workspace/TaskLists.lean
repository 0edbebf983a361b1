import CountyFlow.Lib.Keyset
import CountyFlow.Lib.Runs
import CountyFlow.Worker.Ledger

/-!
# The task lists of the workspace

`list_my_tasks` and `list_team_tasks` count the tasks of an employee by four states, and list them page by
page. A state stands for the statuses of `MY_TASK_STATUS_GROUPS`; a status that is in none of them is
counted in the total and in no state.
-/

namespace CountyFlow.Workspace

open CountyFlow.Lib
open CountyFlow.Worker (TaskStatus)

/-! ### Tasks and states -/

def myTaskStatusGroups : List (String × List String) :=
  [("READY", ["APPROVED", "ASSIGNED"]),
    ("WAITING", ["PENDING", "QUEUED", "REVIEW_REQUIRED"]),
    ("ACTIVE", ["RUNNING", "PROCESSING", "IN_PROGRESS"]),
    ("ENDED", ["COMPLETED", "REJECTED", "FAILED", "CANCELLED"])]

def statusesOf (state : String) : List String := (myTaskStatusGroups.lookup state).getD []

def states : List String := myTaskStatusGroups.map Prod.fst

/-- What the lists read of a row of `dispatch_tasks`.  The order, the anomaly, the latest dispatch and its
publication are joined to it by unique keys, and where there is none the row stays. -/
structure TaskRow where
  id : ℕ
  taskId : String
  assigneeSubjectId : Option String
  status : String
  deriving DecidableEq, Repr

/-- `dispatch_tasks`: the ids are different, and fit their column. -/
structure TaskTable where
  rows : List TaskRow
  ids_nodup : (rows.map TaskRow.id).Nodup
  ids_fit : ∀ row ∈ rows, row.id ≤ 2147483647

/-- A row of `demo_employee_accounts`. -/
structure Account where
  employeeId : String
  displayName : String
  role : String
  isActive : Bool
  deriving DecidableEq, Repr

/-- Tasks with greater ids are inserted. -/
def TaskTable.Grows (table table' : TaskTable) : Prop := Keyset.Grows TaskRow.id table.rows table'.rows

/-- A status the repository's own code writes: that of the API, the ledger, the workers and the reviewer, or
of the demo tasks. -/
def Written (status : String) : Prop := status = "IN_PROGRESS" ∨ ∃ s : TaskStatus, status = s.text

/-! ### The lists -/

inductive ReadError where
  | value (message : String)
  | teamMemberNotFound (subjectId : String)
  | invalidCursor (message : String)
  deriving DecidableEq, Repr

/-- `MyTaskSummary`, `TeamTaskSummary` and the counts of `TeamMemberTaskSummary`. -/
structure TaskSummary where
  total : ℕ
  ready : ℕ
  waiting : ℕ
  active : ℕ
  ended : ℕ
  deriving DecidableEq, Repr

def countIn (state : String) (tasks : List TaskRow) : ℕ := tasks.countP fun task =>
    task.status ∈ statusesOf state

def summarize (tasks : List TaskRow) : TaskSummary where
  total := tasks.length
  ready := countIn "READY" tasks
  waiting := countIn "WAITING" tasks
  active := countIn "ACTIVE" tasks
  ended := countIn "ENDED" tasks

/-- `_provenance`; a demo task is one with `task_id LIKE 'DEMO-TASK-%'`. -/
def provenance (tasks : List TaskRow) : String :=
  let demoCount := tasks.countP fun task => "DEMO-TASK-".toList.isPrefixOf task.taskId.toList
  if 0 < tasks.length ∧ demoCount = tasks.length then "DEMO"
  else if 0 < demoCount then "MIXED"
  else "LIVE"

def validatedLimit (limit : ℤ) : Except ReadError ℕ :=
  if 1 ≤ limit ∧ limit ≤ 100 then .ok limit.toNat else .error (.value "limit must be between 1 and 100")

def inState (message : String) (state : Option String) (tasks : List TaskRow) :
    Except ReadError (List TaskRow) :=
  match state with
  | none => .ok tasks
  | some state =>
    match myTaskStatusGroups.lookup state with
    | none => .error (.value message)
    | some statuses => .ok (tasks.filter fun task => task.status ∈ statuses)

structure MyTaskPage where
  items : List TaskRow
  summary : TaskSummary
  total : ℕ
  nextCursor : Option String
  provenance : String
  deriving DecidableEq, Repr

def TaskTable.assignedTo (table : TaskTable) (subjectId : String) : List TaskRow :=
  table.rows.filter fun task => task.assigneeSubjectId = some subjectId

def listMyTasks (table : TaskTable) (subjectId : String) (limit : ℤ) (beforeId : Option ℕ)
    (state : Option String) : Except ReadError MyTaskPage := do
  let limit ← validatedLimit limit
  let tasks ← inState "unsupported my-task state" state (table.assignedTo subjectId)
  let page := Keyset.page TaskRow.id limit beforeId tasks
  return ⟨page.items, summarize (table.assignedTo subjectId), tasks.length, page.next.map Nat.repr,
    provenance tasks⟩

structure TeamMemberTaskSummary where
  subjectId : String
  displayName : String
  summary : TaskSummary
  deriving DecidableEq, Repr

structure TeamTaskPage where
  items : List TaskRow
  summary : TaskSummary
  members : List TeamMemberTaskSummary
  total : ℕ
  nextCursor : Option String
  provenance : String
  deriving DecidableEq, Repr

/-- The active employees, in the order of their ids. -/
def teamMembers (accounts : List Account) : List Account :=
  (accounts.filter fun account => account.isActive ∧ account.role = "EMPLOYEE").insertionSort
    fun a b => a.employeeId ≤ b.employeeId

def memberIds (accounts : List Account) : List String := (teamMembers accounts).map Account.employeeId

/-- The tasks of the team.  The join with the accounts keeps each of them once: its assignee is a member, and
`employee_id` is the primary key. -/
def TaskTable.ofTeam (table : TaskTable) (accounts : List Account) : List TaskRow :=
  table.rows.filter fun task => task.assigneeSubjectId.any (· ∈ memberIds accounts)

def checkMember (accounts : List Account) (assigneeSubjectId : Option String) : Except ReadError Unit :=
  match assigneeSubjectId with
  | none => .ok ()
  | some subjectId => if subjectId ∈ memberIds accounts then .ok ()
      else .error (.teamMemberNotFound subjectId)

def listTeamTasks (accounts : List Account) (table : TaskTable) (assigneeSubjectId : Option String)
    (limit : ℤ) (beforeId : Option ℕ) (state : Option String) : Except ReadError TeamTaskPage := do
  let limit ← validatedLimit limit
  checkMember accounts assigneeSubjectId
  if memberIds accounts = [] then return ⟨[], ⟨0, 0, 0, 0, 0⟩, [], 0, none, "LIVE"⟩
  let narrowed := (table.ofTeam accounts).filter fun task =>
    assigneeSubjectId.all fun subjectId => task.assigneeSubjectId = some subjectId
  let tasks ← inState "unsupported team-task state" state narrowed
  let page := Keyset.page TaskRow.id limit beforeId tasks
  return ⟨page.items, summarize (table.ofTeam accounts),
    (teamMembers accounts).map fun account =>
      ⟨account.employeeId, account.displayName, summarize (table.assignedTo account.employeeId)⟩,
    tasks.length, page.next.map Nat.repr, provenance tasks⟩

/-! ### Cursors -/

def parseNumericCursor : Option String → Except ReadError (Option ℕ)
  | none => .ok none
  | some cursor =>
    if cursor.toList = [] ∨ cursor.toList.all Char.isDigit = false ∨ 19 < cursor.length then
      .error (.invalidCursor "workspace cursor must be a numeric string")
    else if 9223372036854775807 < Nat.ofDigitChars 10 cursor.toList 0 then
      .error (.invalidCursor "workspace cursor is outside the supported range")
    else .ok (some (Nat.ofDigitChars 10 cursor.toList 0))

variable {before : Option ℕ}

theorem parseNumericCursor_repr (h : ∀ id ∈ before, id ≤ 2147483647) :
    parseNumericCursor (before.map Nat.repr) = .ok before := by
  cases before with
  | none => rfl
  | some id =>
    have hid : id ≤ 2147483647 := h id rfl
    have hdigits : ∀ c ∈ Nat.toDigits 10 id, c.isDigit = true :=
      fun c hc => Nat.isDigit_of_mem_toDigits (by decide) (by decide) hc
    have hlength : (Nat.repr id).length ≤ 19 := (Nat.length_repr_le_iff (by decide)).mpr (by omega)
    have hrange : ¬ 9223372036854775807 < id := by omega
    simpa [parseNumericCursor, not_lt.mpr hlength, hrange] using hdigits

/-- The items of the pages from the `k`-th one on; `ask` is what the service answers with, given the
cursor. -/
def follow (ask : ℕ → Option String → Except ReadError (List TaskRow × Option String)) :
    ℕ → ℕ → Option String → Option (Except ReadError (List TaskRow))
  | 0, _, _ => none
  | fuel + 1, k, cursor =>
    match ask k cursor with
    | .error e => some (.error e)
    | .ok (items, none) => some (.ok items)
    | .ok (items, some next) => (follow ask fuel (k + 1) (some next)).map fun rest => rest.map (items ++ ·)

/-- `WorkspaceReadService.list_my_tasks`, the items and the cursor of its page. -/
def askMyTasks (tables : ℕ → TaskTable) (subjectId : String) (limit : ℤ) (state : Option String) (k : ℕ)
    (cursor : Option String) : Except ReadError (List TaskRow × Option String) := do
  let beforeId ← parseNumericCursor cursor
  let page ← listMyTasks (tables k) subjectId limit beforeId state
  return (page.items, page.nextCursor)

/-- `WorkspaceReadService.list_team_tasks`. -/
def askTeamTasks (accounts : List Account) (tables : ℕ → TaskTable) (assigneeSubjectId : Option String)
    (limit : ℤ) (state : Option String) (k : ℕ) (cursor : Option String) :
    Except ReadError (List TaskRow × Option String) := do
  let beforeId ← parseNumericCursor cursor
  let page ← listTeamTasks accounts (tables k) assigneeSubjectId limit beforeId state
  return (page.items, page.nextCursor)

variable {ask : ℕ → Option String → Except ReadError (List TaskRow × Option String)}

theorem follow_eq {pages : ℕ → Option ℕ → Keyset.Page TaskRow ℕ}
    (hask : ∀ k before, (∀ id ∈ before, id ≤ 2147483647) → ask k (before.map Nat.repr) =
      .ok ((pages k before).items, (pages k before).next.map Nat.repr))
    (hfit : ∀ k before, ∀ id ∈ (pages k before).next, id ≤ 2147483647) (fuel k : ℕ)
    (hbefore : ∀ id ∈ before, id ≤ 2147483647) :
    follow ask fuel k (before.map Nat.repr) = (Keyset.follow pages fuel k before).map .ok := by
  induction fuel generalizing k before with
  | zero => rfl
  | succ fuel ih =>
    unfold follow Keyset.follow
    rw [hask k before hbefore]
    cases hnext : (pages k before).next with
    | none => rfl
    | some last =>
      have hlast : ∀ id ∈ some last, id ≤ 2147483647 := hnext ▸ hfit k before
      have hrest := ih (k + 1) hlast
      rw [Option.map_some] at hrest
      simp only [Option.map_some, hrest]
      cases Keyset.follow pages fuel (k + 1) (some last) with
      | none => rfl
      | some rest => rfl

theorem next_fits {limit : ℕ} {tasks : List TaskRow} (h : ∀ task ∈ tasks, task.id ≤ 2147483647) {id : ℕ}
    (hid : id ∈ (Keyset.page TaskRow.id limit before tasks).next) : id ≤ 2147483647 := by
  unfold Keyset.page at hid
  dsimp only at hid
  split at hid
  · obtain ⟨task, htask, rfl⟩ := Option.map_eq_some_iff.mp hid
    have hmem := List.mem_of_mem_take (List.mem_of_mem_take (List.mem_of_getLast? htask))
    exact h task (List.mem_filter.mp (Keyset.mem_descending.mp hmem)).1
  · cases hid

/-! ### The states add up -/

def Grouped (status : String) : Prop := ∃ state ∈ states, status ∈ statusesOf state

instance : DecidablePred Grouped := fun status =>
  inferInstanceAs (Decidable (∃ state ∈ states, status ∈ statusesOf state))

theorem groups_disjoint {status state state' : String} (h : state ∈ states) (h' : state' ∈ states)
    (hs : status ∈ statusesOf state) (hs' : status ∈ statusesOf state') : state = state' := by
  have hall : (states.all fun a => states.all fun b => (statusesOf a).all fun s =>
      a = b || s ∉ statusesOf b) = true := by decide
  have hpair := List.all_eq_true.mp (List.all_eq_true.mp (List.all_eq_true.mp hall state h) state' h')
    status hs
  simpa [hs'] using hpair

theorem grouped_iff {status : String} (h : Written status) :
    Grouped status ↔ status ≠ "DLQ" ∧ status ≠ "SUBMISSION_FAILED" := by
  rcases h with rfl | ⟨s, rfl⟩
  · decide
  · cases s <;> decide

def TaskSummary.counted (s : TaskSummary) : ℕ := s.ready + s.waiting + s.active + s.ended

theorem countIn_cons (state : String) (task : TaskRow) (tasks : List TaskRow) :
    countIn state (task :: tasks) = countIn state tasks + if task.status ∈ statusesOf state then 1
    else 0 := by
  unfold countIn
  rw [List.countP_cons]
  simp

theorem counted_cons (task : TaskRow) (tasks : List TaskRow) :
    (summarize (task :: tasks)).counted = (summarize tasks).counted + if Grouped task.status then 1
    else 0 := by
  have hsplit : (summarize (task :: tasks)).counted = (summarize tasks).counted +
      (states.countP fun state => task.status ∈ statusesOf state) := by
    show countIn _ _ + countIn _ _ + countIn _ _ + countIn _ _ = countIn _ _ + countIn _ _ + countIn _ _ +
      countIn _ _ + _
    rw [countIn_cons, countIn_cons, countIn_cons, countIn_cons]
    simp only [states, myTaskStatusGroups, List.map_cons, List.map_nil, List.countP_cons, List.countP_nil,
      decide_eq_true_eq]
    omega
  rw [hsplit]
  by_cases hgrouped : Grouped task.status
  · obtain ⟨state, hstate, hin⟩ := hgrouped
    have hone : ∀ other ∈ states, decide (task.status ∈ statusesOf other) = true ↔
      (other == state) = true := by
      intro other hother
      rw [decide_eq_true_eq, beq_iff_eq]
      exact ⟨fun h => groups_disjoint hother hstate h hin, fun h => h ▸ hin⟩
    have hnodup : states.Nodup := by decide
    rw [List.countP_congr hone, if_pos ⟨state, hstate, hin⟩]
    show (summarize tasks).counted + states.count state = _
    rw [List.count_eq_one_of_mem hnodup hstate]
  · have hnone : states.countP (fun state => task.status ∈ statusesOf state) = 0 :=
      List.countP_eq_zero.mpr fun state hstate hin => hgrouped ⟨state, hstate, of_decide_eq_true hin⟩
    rw [hnone, if_neg hgrouped]

theorem summarize_whole_iff (tasks : List TaskRow) :
    (summarize tasks).total = (summarize tasks).counted ↔ ∀ task ∈ tasks, Grouped task.status := by
  have hcounted : (summarize tasks).counted = tasks.countP fun task => Grouped task.status := by
    induction tasks with
    | nil => rfl
    | cons task tasks ih =>
      rw [counted_cons, List.countP_cons, ih]
      simp
  rw [hcounted]
  show tasks.length = _ ↔ _
  rw [eq_comm, List.countP_eq_length]
  simp

/-! ### What a list loses -/

/-- Each task is in the list of exactly one state. -/
def OneStateEach (tasks : List TaskRow) : Prop :=
  ∀ task ∈ tasks, ∃! state, state ∈ states ∧ task.status ∈ statusesOf state

def ofState (state : Option String) (tasks : List TaskRow) : List TaskRow :=
  tasks.filter fun task => state.all fun state => task.status ∈ statusesOf state

def ofMember (assigneeSubjectId : Option String) (tasks : List TaskRow) : List TaskRow :=
  tasks.filter fun task => assigneeSubjectId.all fun subjectId => task.assigneeSubjectId = some subjectId

/-- Following the cursors ends, and lists the tasks, each once and in descending order of the ids. -/
def Pages (ask : ℕ → Option String → Except ReadError (List TaskRow × Option String)) (tasks : List TaskRow) :
    Prop :=
  ∃ fuel items, follow ask fuel 0 none = some (.ok items) ∧ (items.Pairwise fun a b => b.id < a.id) ∧
    ∀ task, task ∈ items ↔ task ∈ tasks

/-- **Nothing of an employee's tasks is lost**, whatever is inserted between the pages. -/
structure MyTasksWhole (table : TaskTable) (subjectId : String) : Prop where
  summary : ∀ limit beforeId state page, listMyTasks table subjectId limit beforeId state = .ok page →
    page.summary.total = page.summary.counted
  oneState : OneStateEach (table.assignedTo subjectId)
  pages : ∀ tables : ℕ → TaskTable, tables 0 = table → (∀ k, (tables k).Grows (tables (k + 1))) →
    ∀ limit, 1 ≤ limit → limit ≤ 100 → ∀ state, (∀ s ∈ state, s ∈ states) →
    Pages (askMyTasks tables subjectId limit state) (ofState state (table.assignedTo subjectId))

/-- **Nothing of the team's tasks is lost.** -/
structure TeamTasksWhole (accounts : List Account) (table : TaskTable) : Prop where
  summary : ∀ assigneeSubjectId limit beforeId state page,
    listTeamTasks accounts table assigneeSubjectId limit beforeId state = .ok page →
    page.summary.total = page.summary.counted ∧
      ∀ member ∈ page.members, member.summary.total = member.summary.counted
  oneState : OneStateEach (table.ofTeam accounts)
  pages : ∀ tables : ℕ → TaskTable, tables 0 = table → (∀ k, (tables k).Grows (tables (k + 1))) →
    ∀ assigneeSubjectId, (∀ a ∈ assigneeSubjectId, a ∈ memberIds accounts) →
    ∀ limit, 1 ≤ limit → limit ≤ 100 → ∀ state, (∀ s ∈ state, s ∈ states) →
    Pages (askTeamTasks accounts tables assigneeSubjectId limit state)
      (ofState state (ofMember assigneeSubjectId (table.ofTeam accounts)))

theorem oneStateEach_iff (tasks : List TaskRow) : OneStateEach tasks ↔ ∀ task ∈ tasks,
    Grouped task.status := by
  refine forall₂_congr fun task _ => ⟨fun h => h.exists, fun h => ?_⟩
  obtain ⟨state, hstate, hin⟩ := h
  exact ⟨state, ⟨hstate, hin⟩, fun other hother => groups_disjoint hother.1 hstate hother.2 hin⟩

variable {state : Option String}

theorem inState_eq (message : String) (h : ∀ s ∈ state, s ∈ states)
    (tasks : List TaskRow) : inState message state tasks = .ok (ofState state tasks) := by
  cases state with
  | none => simp [inState, ofState]
  | some state =>
    have hall : (states.all fun s => (myTaskStatusGroups.lookup s).isSome) = true := by decide
    obtain ⟨statuses, hstatuses⟩ := Option.isSome_iff_exists.mp (List.all_eq_true.mp hall state (h state rfl))
    simp [inState, ofState, statusesOf, hstatuses]

variable {limit : ℤ}

theorem validatedLimit_eq (hlow : 1 ≤ limit) (hhigh : limit ≤ 100) :
    validatedLimit limit = .ok limit.toNat := if_pos ⟨hlow, hhigh⟩

variable {accounts : List Account} {assigneeSubjectId : Option String}

theorem checkMember_eq
    (h : ∀ a ∈ assigneeSubjectId, a ∈ memberIds accounts) : checkMember accounts assigneeSubjectId =
    .ok () := by
  cases assigneeSubjectId with
  | none => rfl
  | some a => exact if_pos (h a rfl)

variable {tables : ℕ → TaskTable}

theorem pages_of_grows (hgrows : ∀ k, (tables k).Grows (tables (k + 1))) (keep : TaskRow → Bool) {limit : ℕ}
    (hlimit : 0 < limit)
    (hask : ∀ k before, (∀ id ∈ before, id ≤ 2147483647) → ask k (before.map Nat.repr) =
      .ok ((Keyset.page TaskRow.id limit before ((tables k).rows.filter keep)).items,
        (Keyset.page TaskRow.id limit before ((tables k).rows.filter keep)).next.map Nat.repr)) :
    Pages ask ((tables 0).rows.filter keep) := by
  have hfirst : (((tables 0).rows.filter keep).map TaskRow.id).Nodup :=
    (tables 0).ids_nodup.sublist (List.filter_sublist.map _)
  obtain ⟨fuel, hfuel⟩ := Keyset.follow_lists hfirst (fun k => (hgrows k).filter keep) hlimit fun _ _ => rfl
  have hfit : ∀ k before, ∀ id ∈ (Keyset.page TaskRow.id limit before ((tables k).rows.filter keep)).next,
      id ≤ 2147483647 :=
    fun k before id hid =>
      next_fits (fun task htask => (tables k).ids_fit task (List.mem_filter.mp htask).1) hid
  refine ⟨fuel, _, ?_, Keyset.descending_strict hfirst, fun task => Keyset.mem_descending⟩
  have hnone : ∀ id ∈ (none : Option ℕ), id ≤ 2147483647 := nofun
  have heq := follow_eq hask hfit fuel 0 hnone
  rw [Option.map_none, hfuel] at heq
  exact heq

theorem pages_myTasks (hgrows : ∀ k, (tables k).Grows (tables (k + 1))) (subjectId : String)
    (hlow : 1 ≤ limit) (hhigh : limit ≤ 100) (hstate : ∀ s ∈ state, s ∈ states) :
    Pages (askMyTasks tables subjectId limit state) (ofState state ((tables 0).assignedTo subjectId)) := by
  unfold ofState TaskTable.assignedTo
  rw [List.filter_filter]
  refine pages_of_grows hgrows _ (show 0 < limit.toNat by omega) fun k before hbefore => ?_
  rw [← List.filter_filter]
  unfold askMyTasks listMyTasks
  rw [parseNumericCursor_repr hbefore, validatedLimit_eq hlow hhigh]
  simp only [inState_eq _ hstate]
  rfl

theorem pages_teamTasks (accounts : List Account) (hgrows : ∀ k, (tables k).Grows (tables (k + 1)))
    (hmember : ∀ a ∈ assigneeSubjectId, a ∈ memberIds accounts) (hlow : 1 ≤ limit) (hhigh : limit ≤ 100)
    (hstate : ∀ s ∈ state, s ∈ states) :
    Pages (askTeamTasks accounts tables assigneeSubjectId limit state)
      (ofState state (ofMember assigneeSubjectId ((tables 0).ofTeam accounts))) := by
  unfold ofState ofMember TaskTable.ofTeam
  rw [List.filter_filter, List.filter_filter]
  refine pages_of_grows hgrows _ (show 0 < limit.toNat by omega) fun k before hbefore => ?_
  rw [← List.filter_filter, ← List.filter_filter]
  unfold askTeamTasks listTeamTasks
  rw [parseNumericCursor_repr hbefore, validatedLimit_eq hlow hhigh, checkMember_eq hmember]
  by_cases hnone : memberIds accounts = []
  · -- no member, no task
    have hempty : (tables k).rows.filter (fun task => task.assigneeSubjectId.any (· ∈ memberIds accounts)) =
      [] :=
      List.filter_eq_nil_iff.mpr fun task _ => by simp [hnone]
    rw [hempty]
    simp [hnone, Keyset.page, Keyset.below, Keyset.descending]
    rfl
  · simp only [inState_eq _ hstate, hnone]
    rfl

variable {table : TaskTable} {subjectId : String} {beforeId : Option ℕ}

theorem listMyTasks_summary {page : MyTaskPage}
    (h : listMyTasks table subjectId limit beforeId state = .ok page) :
    page.summary = summarize (table.assignedTo subjectId) := by
  unfold listMyTasks at h
  obtain ⟨_, -, h⟩ := bind_eq_ok.mp h
  obtain ⟨_, -, h⟩ := bind_eq_ok.mp h
  cases h
  rfl

theorem listTeamTasks_summary {page : TeamTaskPage}
    (h : listTeamTasks accounts table assigneeSubjectId limit beforeId state = .ok page) :
    page.summary = summarize (table.ofTeam accounts) ∧ ∀ member ∈ page.members,
      member.subjectId ∈ memberIds accounts ∧
      member.summary = summarize (table.assignedTo member.subjectId) := by
  unfold listTeamTasks at h
  obtain ⟨_, -, h⟩ := bind_eq_ok.mp h
  obtain ⟨_, -, h⟩ := bind_eq_ok.mp h
  split at h
  · next hnone =>
    cases h
    have hempty : table.ofTeam accounts = [] := List.filter_eq_nil_iff.mpr fun task _ => by simp [hnone]
    rw [hempty]
    exact ⟨rfl, nofun⟩
  · obtain ⟨_, -, h⟩ := bind_eq_ok.mp h
    cases h
    refine ⟨rfl, fun member hmember => ?_⟩
    obtain ⟨account, haccount, rfl⟩ := List.mem_map.mp hmember
    exact ⟨List.mem_map_of_mem haccount, rfl⟩

theorem assignedTo_ofTeam (h : subjectId ∈ memberIds accounts) {task : TaskRow}
    (htask : task ∈ table.assignedTo subjectId) : task ∈ table.ofTeam accounts := by
  obtain ⟨hrow, hassignee⟩ := List.mem_filter.mp htask
  refine List.mem_filter.mpr ⟨hrow, ?_⟩
  rw [of_decide_eq_true hassignee]
  simpa using h

theorem myTasksWhole_iff (table : TaskTable) (subjectId : String) :
    MyTasksWhole table subjectId ↔ ∀ task ∈ table.assignedTo subjectId, Grouped task.status := by
  refine ⟨fun h => (oneStateEach_iff _).mp h.oneState, fun h => ⟨?_, (oneStateEach_iff _).mpr h, ?_⟩⟩
  · intro limit beforeId state page hpage
    rw [listMyTasks_summary hpage]
    exact (summarize_whole_iff _).mpr h
  · rintro tables rfl hgrows limit hlow hhigh state hstate
    exact pages_myTasks hgrows subjectId hlow hhigh hstate

theorem teamTasksWhole_iff (accounts : List Account) (table : TaskTable) :
    TeamTasksWhole accounts table ↔ ∀ task ∈ table.ofTeam accounts, Grouped task.status := by
  refine ⟨fun h => (oneStateEach_iff _).mp h.oneState, fun h => ⟨?_, (oneStateEach_iff _).mpr h, ?_⟩⟩
  · intro assigneeSubjectId limit beforeId state page hpage
    obtain ⟨hsummary, hmembers⟩ := listTeamTasks_summary hpage
    rw [hsummary]
    refine ⟨(summarize_whole_iff _).mpr h, fun member hmember => ?_⟩
    obtain ⟨hteam, hcounts⟩ := hmembers member hmember
    rw [hcounts]
    exact (summarize_whole_iff _).mpr fun task htask => h task (assignedTo_ofTeam hteam htask)
  · rintro tables rfl hgrows assigneeSubjectId hmember limit hlow hhigh state hstate
    exact pages_teamTasks accounts hgrows hmember hlow hhigh hstate

/-- **The lists lose nothing exactly as long as no task is `DLQ` or `SUBMISSION_FAILED`**: those two are in no
group of `MY_TASK_STATUS_GROUPS`. -/
theorem task_lists_whole_iff (accounts : List Account) (table : TaskTable)
    (hwritten : ∀ task ∈ table.rows, Written task.status) :
    (∀ subjectId, MyTasksWhole table subjectId ↔
      ∀ task ∈ table.assignedTo subjectId, task.status ≠ "DLQ" ∧ task.status ≠ "SUBMISSION_FAILED") ∧
    (TeamTasksWhole accounts table ↔
      ∀ task ∈ table.ofTeam accounts, task.status ≠ "DLQ" ∧ task.status ≠ "SUBMISSION_FAILED") := by
  refine ⟨fun subjectId => ?_, ?_⟩
  · rw [myTasksWhole_iff]
    exact forall₂_congr fun task htask => grouped_iff (hwritten task (List.mem_filter.mp htask).1)
  · rw [teamTasksWhole_iff]
    exact forall₂_congr fun task htask => grouped_iff (hwritten task (List.mem_filter.mp htask).1)

def deadLettered : TaskTable where
  rows := [⟨1, "TASK-1", some "EMP-1", "DLQ"⟩]
  ids_nodup := by decide
  ids_fit := by decide

theorem deadLettered_written : ∀ task ∈ deadLettered.rows, Written task.status := by
  intro task htask
  rw [List.mem_singleton.mp htask]
  exact .inr ⟨.dlq, rfl⟩

/-- The lists of its assignee and those of the team lose it. -/
theorem task_lists_whole_iff_deadLettered :
    ¬ MyTasksWhole deadLettered "EMP-1" ∧
    ¬ TeamTasksWhole [⟨"EMP-1", "First", "EMPLOYEE", true⟩] deadLettered := by
  obtain ⟨hmine, hteam⟩ :=
    task_lists_whole_iff [⟨"EMP-1", "First", "EMPLOYEE", true⟩] deadLettered deadLettered_written
  rw [hmine, hteam]
  decide

/-- The one task of the table is in the total, and in no state. -/
theorem deadLettered_lost :
    (∀ task ∈ deadLettered.rows, Written task.status) ∧ ¬ MyTasksWhole deadLettered "EMP-1" ∧
      ∃ page, listMyTasks deadLettered "EMP-1" 20 none none = .ok page ∧ page.items = deadLettered.rows ∧
        page.summary.total = 1 ∧ page.summary.counted = 0 ∧
        ∀ state ∈ states,
          (listMyTasks deadLettered "EMP-1" 20 none (some state)).toOption.map MyTaskPage.items =
          some [] := by
  refine ⟨deadLettered_written, ?_, _, rfl, rfl, rfl, rfl, by decide⟩
  rw [myTasksWhole_iff]
  decide

end CountyFlow.Workspace
