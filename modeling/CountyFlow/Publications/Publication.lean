import Mathlib.Data.List.MinMax
import CountyFlow.Worker.Ledger

/-!
# Publications

What `DispatchPublicationService` reads and forms: the latest dispatch of a task and its latest audit
record, the route and its instruction, the row of `dispatch_publications` and the answer of a call.

The columns of a dispatch that are written when it is inserted, and never again, are `columns` of its
id.  Instants are microseconds; `stored` says what the column of an instant keeps of it.
-/

namespace CountyFlow.Publications

open CountyFlow.Lib
open CountyFlow.Worker (Db DispatchTask Dispatch AuditRecord TaskStatus)

/-! ### Rows -/

structure DispatchColumns where
  originalRouteId : Option String
  targetRouteId : Option String
  originalVehicleId : Option String
  targetVehicleId : Option String
  targetDriverId : Option String
  transferNodeId : Option String
  deriving DecidableEq, Repr

structure Order where
  origin : String
  destination : String
  deriving DecidableEq, Repr

/-- The tables that a publication reads without a lock, and the assignees of the tasks. -/
structure References where
  orders : ℤ → Option Order
  plateNo : String → Option String
  driverName : String → Option String
  employeeName : String → Option String
  assigneeSubjectId : String → Option String

structure Publisher where
  subjectId : String
  displayName : String
  deriving DecidableEq, Repr

/-- The publisher of `publish_automatically`. -/
def automaticPublisher : Publisher := ⟨"countyflow-ai", "CountyFlow AI 自动发布"⟩

inductive PublicationStatus where
  | published
  deriving DecidableEq, Repr

/-- A row of `dispatch_publications`; `task_id` and `dispatch_id` are unique. -/
structure DispatchPublication where
  taskId : String
  dispatchId : ℕ
  status : PublicationStatus
  routeId : String
  routeInstruction : String
  publishedBySubjectId : String
  publishedByDisplayName : String
  publishedAt : ℕ
  deriving DecidableEq, Repr

/-- The dictionary a call answers with. -/
structure PublicationResult where
  taskId : String
  dispatchId : ℕ
  status : PublicationStatus
  routeId : String
  routeInstruction : String
  publishedAt : ℕ
  publishedBy : String
  recipientEmployeeId : String
  recipientDisplayName : String
  duplicate : Bool
  deriving DecidableEq, Repr

/-- The exceptions of the service, and those of the database. -/
inductive PublicationError where
  | publicationTaskNotFound
  | publicationDispatchMissing
  | publicationNotApproved
  | publicationRouteMissing
  | valueError (message : String)
  | integrityError
  | databaseError
  deriving DecidableEq, Repr

/-! ### What a publication says -/

/-- A text of Python's `or`: the empty text and `None` give way. -/
def orText (text : Option String) (other : String) : String :=
  match text with
  | some "" | none => other
  | some s => s

/-- `dispatch.target_route_id or dispatch.original_route_id`. -/
def DispatchColumns.routeId (columns : DispatchColumns) : Option String :=
  match columns.targetRouteId with
  | some "" | none => columns.originalRouteId
  | some route => some route

def latestDispatch (db : Db) (taskId : String) : Option Dispatch :=
  (db.dispatches.rows.filter fun dispatch => dispatch.taskId = taskId).argmax Dispatch.id

def latestAudit (db : Db) (taskId : String) (dispatchId : ℕ) : Option AuditRecord :=
  (db.auditsOf taskId dispatchId).argmax AuditRecord.id

def publishable : List TaskStatus := [.approved, .completed]

def routeInstruction (references : References) (columns : DispatchColumns) (order : Order)
    (routeId : String) : String :=
  match columns.targetVehicleId with
  | none => direct
  | some vehicleId =>
    if columns.originalVehicleId = some vehicleId then direct
    else
      let plate := (references.plateNo vehicleId).getD vehicleId
      let driverLabel := match columns.targetDriverId with
        | none => "未指定司机"
        | some driverId => match references.driverName driverId with
          | some name => name ++ "（" ++ driverId ++ "）"
          | none => orText (some driverId) "未指定司机"
      "换用车牌 " ++ plate ++ "，由司机 " ++ driverLabel ++ "前往接驳节点 " ++
        orText columns.transferNodeId "未指定接驳节点" ++ "，随后按路线 " ++ routeId ++ " 行驶至 " ++
        order.destination ++ "。"
where
  /-- The instruction of a dispatch that keeps its vehicle. -/
  direct : String :=
    "从 " ++ order.origin ++ " 出发，按 " ++ routeId ++ " 行驶，前往 " ++ order.destination ++
      "。途中注意现场路况并服从安全调度。"

/-- A task as the session has loaded it. -/
structure LoadedTask where
  task : DispatchTask
  assigneeSubjectId : Option String
  deriving DecidableEq, Repr

def LoadedTask.taskId (loaded : LoadedTask) : String := loaded.task.taskId

def draft (references : References) (columns : DispatchColumns) (loaded : LoadedTask)
    (publisher : Publisher) (dispatch : Dispatch) (order : Order) (routeId : String) (now : ℕ) :
    DispatchPublication where
  taskId := loaded.taskId
  dispatchId := dispatch.id
  status := .published
  routeId := routeId
  routeInstruction := routeInstruction references columns order routeId
  publishedBySubjectId := publisher.subjectId
  publishedByDisplayName := publisher.displayName
  publishedAt := now

def DispatchPublication.row (stored : ℕ → ℕ) (publication : DispatchPublication) :
    DispatchPublication :=
  { publication with publishedAt := stored publication.publishedAt }

def result (references : References) (loaded : LoadedTask) (publication : DispatchPublication)
    (duplicate : Bool) : PublicationResult where
  taskId := loaded.taskId
  dispatchId := publication.dispatchId
  status := publication.status
  routeId := publication.routeId
  routeInstruction := publication.routeInstruction
  publishedAt := publication.publishedAt
  publishedBy := publication.publishedByDisplayName
  recipientEmployeeId := orText loaded.assigneeSubjectId "UNASSIGNED"
  recipientDisplayName := match loaded.assigneeSubjectId.bind references.employeeName with
    | some name => name
    | none => orText loaded.assigneeSubjectId "未指定接收员工"
  duplicate := duplicate

/-! ### When a publication is justified -/

/-- **The publication is of an approved dispatch**: the task is approved or completed, the latest audit
record of its latest dispatch is an approval, and dispatch and route are those of that dispatch. -/
def Justified (columns : ℕ → DispatchColumns) (db : Db) (publication : DispatchPublication) : Prop :=
  ∃ task dispatch audit, db.tasks.find publication.taskId = some task ∧ task.status ∈ publishable ∧
    latestDispatch db publication.taskId = some dispatch ∧
    latestAudit db publication.taskId dispatch.id = some audit ∧ audit.result = .approved ∧
    publication.dispatchId = dispatch.id ∧
    ((columns dispatch.id).targetRouteId = some publication.routeId ∨
      ((columns dispatch.id).targetRouteId ∈ [none, some ""] ∧
        (columns dispatch.id).originalRouteId = some publication.routeId))

/-- The answer shows the row; a call that has inserted it shows the instant as the clock gave it. -/
structure PublicationResult.Shows (stored : ℕ → ℕ) (r : PublicationResult)
    (row : DispatchPublication) : Prop where
  taskId : r.taskId = row.taskId
  dispatchId : r.dispatchId = row.dispatchId
  status : r.status = row.status
  routeId : r.routeId = row.routeId
  routeInstruction : r.routeInstruction = row.routeInstruction
  publishedBy : r.publishedBy = row.publishedByDisplayName
  publishedAt : (if r.duplicate then r.publishedAt else stored r.publishedAt) = row.publishedAt

theorem routeId_cases {columns : DispatchColumns} {route : String} (h : columns.routeId = some route) :
    columns.targetRouteId = some route ∨
      (columns.targetRouteId ∈ [none, some ""] ∧ columns.originalRouteId = some route) := by
  unfold DispatchColumns.routeId at h
  split at h
  · rename_i hempty
    exact .inr ⟨by simp [hempty], h⟩
  · rename_i hnone
    exact .inr ⟨by simp [hnone], h⟩
  · rename_i target _ htarget
    rw [h] at htarget
    exact .inl htarget

theorem result_shows (stored : ℕ → ℕ) (references : References) {loaded : LoadedTask}
    {publication row : DispatchPublication} {duplicate : Bool} (htask : loaded.taskId = publication.taskId)
    (hrow : row = if duplicate then publication else publication.row stored) :
    (result references loaded publication duplicate).Shows stored row := by
  subst hrow
  cases duplicate
  · exact ⟨htask, rfl, rfl, rfl, rfl, rfl, rfl⟩
  · exact ⟨htask, rfl, rfl, rfl, rfl, rfl, rfl⟩

/-! ### What a row lock keeps -/

/-- Task, dispatches and audit records of a task are the same in two databases.  The task's row is what
`FOR UPDATE` locks; rows that reference it are inserted under a shared lock of it. -/
def Unchanged (db db' : Db) (taskId : String) : Prop :=
  db'.tasks.find taskId = db.tasks.find taskId ∧
    (db'.dispatches.rows.filter fun dispatch => dispatch.taskId = taskId) =
      (db.dispatches.rows.filter fun dispatch => dispatch.taskId = taskId) ∧
    (db'.audits.filter fun audit => audit.taskId = taskId) =
      (db.audits.filter fun audit => audit.taskId = taskId)

instance (db db' : Db) (taskId : String) : Decidable (Unchanged db db' taskId) :=
  inferInstanceAs (Decidable (_ ∧ _ ∧ _))

theorem Unchanged.refl (db : Db) (taskId : String) : Unchanged db db taskId := ⟨rfl, rfl, rfl⟩

variable {db db' : Db}

theorem Unchanged.latestDispatch {taskId : String} (h : Unchanged db db' taskId) :
    latestDispatch db' taskId = latestDispatch db taskId := by
  unfold Publications.latestDispatch
  rw [h.2.1]

theorem Unchanged.latestAudit {taskId : String} (h : Unchanged db db' taskId)
    (dispatchId : ℕ) : latestAudit db' taskId dispatchId = latestAudit db taskId dispatchId := by
  have hof : ∀ db : Db, db.auditsOf taskId dispatchId =
      (db.audits.filter fun audit => audit.taskId = taskId).filter fun audit =>
        audit.dispatchId = dispatchId := by
    intro db
    unfold Db.auditsOf
    rw [List.filter_filter]
    refine List.filter_congr fun audit _ => ?_
    by_cases htask : audit.taskId = taskId <;> simp [htask]
  unfold Publications.latestAudit
  rw [hof, hof, h.2.2]

theorem Justified.kept {columns : ℕ → DispatchColumns} {publication : DispatchPublication}
    (h : Justified columns db publication)
    (hsame : Unchanged db db' publication.taskId) : Justified columns db' publication := by
  obtain ⟨task, dispatch, audit, htask, hstatus, hdispatch, haudit, hrest⟩ := h
  refine ⟨task, dispatch, audit, ?_, hstatus, ?_, ?_, hrest⟩
  · rw [hsame.1]
    exact htask
  · rw [hsame.latestDispatch]
    exact hdispatch
  · rw [hsame.latestAudit]
    exact haudit

end CountyFlow.Publications
