import CountyFlow.Submission.Messages
import CountyFlow.Workspace.TaskLists

/-!
# Reports of anomalies

`AnomalyReportService.submit` as calls whose database, queue and ledger steps interleave.  A call reads
the task that the report is about, with its order and the vehicle of the order, looks the key of the report
up, writes the report when there is none, and hands a request for a new task to
`DispatchTaskApiService.submit`, under a key made from the key of the report.

The request is built from the order as it was read in this call, not from the report that is stored.
-/

namespace CountyFlow.AnomalyReports

open CountyFlow.Lib CountyFlow.Runtime CountyFlow.Submission Function
open CountyFlow.Worker (TaskStatus)
open CountyFlow.Worker.Db (strip)
open CountyFlow.Workspace (myTaskStatusGroups)

/-! ### Reports -/

structure AnomalyReportCommand where
  sourceTaskId : String
  anomalyType : String
  description : String
  locationText : String
  reportedVehicleStatus : String
  severity : String
  idempotencyKey : String
  incidentNodeId : Option String
  affectedEdgeId : Option String
  deriving DecidableEq, Repr

structure Report where
  command : AnomalyReportCommand
  principalSubjectId : String
  deriving DecidableEq, Repr

/-- A row of `anomalies` with a report key, as `_report_record` reads it. -/
structure Anomaly extends AnomalyReportCommand where
  anomalyId : ℤ
  anomalyNo : String
  orderId : ℤ
  reportedBySubjectId : String
  deriving DecidableEq, Repr

def Anomaly.key (a : Anomaly) : String := a.idempotencyKey

/-- `_same_report`: all fields but the key. -/
def Anomaly.sameReport (report : Anomaly) (c : AnomalyReportCommand) (principalSubjectId : String) : Bool :=
  { report.toAnomalyReportCommand with idempotencyKey := c.idempotencyKey } = c ∧
    report.reportedBySubjectId = principalSubjectId

structure AnomalyReportResult where
  anomalyId : ℤ
  anomalyNo : String
  taskId : String
  status : TaskStatus
  duplicate : Bool
  deriving DecidableEq, Repr

/-- The exceptions of `submit`; `validation` is pydantic's. -/
inductive ReportError where
  | sourceTaskNotFound
  | reportSourceForbidden
  | sourceTaskNotReportable
  | sourceTaskEnded
  | sourceContextIncomplete
  | reportIdempotencyConflict
  | reportQueueUnavailable (anomalyId : ℤ) (anomalyNo taskId : String)
  | validation
  | submission (error : SubmitError)
  | other
  deriving DecidableEq, Repr

/-! ### The source task -/

/-- What is read of a row of `orders`. -/
structure Order where
  driverId : Option String
  vehicleId : Option String
  routeId : Option String
  originStationId : Option String
  destinationStationId : Option String
  deriving DecidableEq, Repr

structure SourceTaskContext where
  taskId : String
  taskGroup : Option String
  assigneeSubjectId : Option String
  orderId : ℤ
  driverId : Option String
  vehicleId : Option String
  routeId : Option String
  canReportAnomaly : Bool
  deriving DecidableEq, Repr

/-- The tables: a vehicle is given by the driver it is assigned to. -/
structure Desk where
  world : World
  orders : ℤ → Option Order
  vehicles : String → Option (Option String)
  reports : Table Anomaly Anomaly.key

/-- `_task_group`. -/
def taskGroup (status : TaskStatus) : Option String :=
  (myTaskStatusGroups.find? fun group => status.text ∈ group.2).map Prod.fst

def Order.route (order : Order) : Option String :=
  match order.routeId, order.originStationId, order.destinationStationId with
  | some route, _, _ => some route
  | none, some origin, some destination =>
    if origin = "" ∨ destination = "" then none else some ("SANDTABLE-" ++ origin ++ "-" ++ destination)
  | none, _, _ => none

def Desk.getSourceTask (d : Desk) (taskId : String) : Option SourceTaskContext :=
  (d.world.ledger.tasks.find taskId).bind fun task => (d.orders task.orderId).map fun order =>
    { taskId := task.taskId, taskGroup := taskGroup task.status, assigneeSubjectId := task.assigneeSubjectId
      orderId := task.orderId
      driverId := order.driverId.filter (· ≠ "") <|> (order.vehicleId.bind d.vehicles).join
      vehicleId := order.vehicleId, routeId := order.route, canReportAnomaly := task.anomalyId.isNone }

def reportableGroups : List String := ["READY", "WAITING", "ACTIVE"]

def check (principalSubjectId : String) (source : Option SourceTaskContext) :
    Except ReportError SourceTaskContext :=
  match source with
  | none => .error .sourceTaskNotFound
  | some source =>
    if source.assigneeSubjectId ≠ some principalSubjectId then .error .reportSourceForbidden
    else if source.canReportAnomaly = false then .error .sourceTaskNotReportable
    else if ∀ group ∈ source.taskGroup, group ∉ reportableGroups then .error .sourceTaskEnded
    else if source.driverId.getD "" = "" ∨ source.vehicleId.getD "" = "" ∨ source.routeId.getD "" = "" then
      .error .sourceContextIncomplete
    else .ok source

/-! ### A call -/

/-- What the world contributes to a step: its share of a submission, which also says whether a query fails
and what becomes of the commit of a report, and the id and the number of a new report. -/
structure ReportOutcome where
  submit : SubmitOutcome
  anomalyId : ℤ
  anomalyNo : String
  deriving DecidableEq, Repr

inductive ReportState where
  | idle
  | sourcing (r : Report)
  | finding (r : Report) (source : SourceTaskContext)
  | creating (r : Report) (source : SourceTaskContext)
  | refinding (r : Report) (source : SourceTaskContext)
  | dispatching (r : Report) (report : Anomaly) (duplicate : Bool) (call : SubmitState)
  | naming (r : Report) (report : Anomaly)
  | returned (r : Report) (result : AnomalyReportResult)
  | raised (r : Report) (error : ReportError)

instance (q : SubmitRequest) : Decidable q.Valid :=
  decidable_of_iff
    (isSized 64 q.payload.driverId = true ∧ isSized 64 q.payload.vehicleId = true ∧
      isSized 64 q.payload.routeId = true ∧ isSized 64 q.payload.anomalyType = true ∧
      isSized 2000 q.payload.anomalyDescription = true ∧ isSized 128 q.idempotencyKey = true ∧
      q.payload.vehicleStatus ∈ ["NORMAL", "BROKEN", "UNAVAILABLE", "MAINTENANCE"] ∧
      (∀ id ∈ q.assigneeEmployeeId, isSized 32 id = true) ∧
        (∀ id ∈ q.payload.incidentNodeId, isSized 64 id = true) ∧
      ∀ id ∈ q.payload.affectedEdgeId, isSized 64 id = true)
    ⟨fun ⟨h₁, h₂, h₃, h₄, h₅, h₆, h₇, h₈, h₉, h₁₀⟩ => ⟨h₁, h₂, h₃, h₄, h₅, h₆, h₇, h₈, h₉, h₁₀⟩,
      fun ⟨h₁, h₂, h₃, h₄, h₅, h₆, h₇, h₈, h₉, h₁₀⟩ => ⟨h₁, h₂, h₃, h₄, h₅, h₆, h₇, h₈, h₉, h₁₀⟩⟩

-- `str.upper`, and the hexadecimal digest of `sha256`.
variable (upper sha256 : String → String)

/-- `_normalized`. -/
def Report.normalized (r : Report) : AnomalyReportCommand where
  sourceTaskId := strip r.command.sourceTaskId
  anomalyType := upper (strip r.command.anomalyType)
  description := strip r.command.description
  locationText := strip r.command.locationText
  reportedVehicleStatus := upper (strip r.command.reportedVehicleStatus)
  severity := upper (strip r.command.severity)
  idempotencyKey := strip r.command.idempotencyKey
  incidentNodeId := r.command.incidentNodeId.map strip
  affectedEdgeId := r.command.affectedEdgeId.map strip

/-- `_dispatch_key`. -/
def dispatchKey (idempotencyKey : String) : String := "anomaly-report:" ++ sha256 idempotencyKey

def Report.anomaly (r : Report) (source : SourceTaskContext) (o : ReportOutcome) : Anomaly where
  toAnomalyReportCommand := { r.normalized upper with sourceTaskId := source.taskId }
  anomalyId := o.anomalyId
  anomalyNo := o.anomalyNo
  orderId := source.orderId
  reportedBySubjectId := r.principalSubjectId

def Report.request (r : Report) (source : SourceTaskContext) (report : Anomaly) : SubmitRequest where
  orderId := source.orderId
  anomalyId := some report.anomalyId
  idempotencyKey := dispatchKey sha256 (r.normalized upper).idempotencyKey
  assigneeEmployeeId := some r.principalSubjectId
  assigneeSubjectId := r.principalSubjectId
  payload :=
    { driverId := source.driverId.getD "", vehicleId := source.vehicleId.getD "",
      routeId := source.routeId.getD ""
      anomalyType := (r.normalized upper).anomalyType, anomalyDescription := (r.normalized upper).description
      vehicleStatus := (r.normalized upper).reportedVehicleStatus
      incidentNodeId := (r.normalized upper).incidentNodeId, affectedEdgeId :=
        (r.normalized upper).affectedEdgeId }

namespace ReportState

/-- With a report at hand, up to the submission. -/
def dispatch (r : Report) (source : SourceTaskContext) (report : Anomaly) (duplicate : Bool) : ReportState :=
  if report.sameReport (r.normalized upper) r.principalSubjectId then
    if (r.request upper sha256 source report).Valid then
      .dispatching r report duplicate (.checking (r.request upper sha256 source report))
    else .raised r .validation
  else .raised r .reportIdempotencyConflict

def settle (r : Report) (report : Anomaly) (duplicate : Bool) : SubmitState → ReportState
  | .accepted _ answer => .returned r
      { anomalyId := report.anomalyId, anomalyNo := report.anomalyNo, taskId := answer.taskId
        status := answer.status, duplicate := duplicate || answer.duplicate }
  | .raised _ .idempotencyConflict => .raised r .reportIdempotencyConflict
  | .raised _ .submissionQueue => .naming r report
  | .raised _ error => .raised r (.submission error)
  | _ => .raised r .other

/-- One step of a call; `none` when it is over. -/
def step (o : ReportOutcome) (d : Desk) : ReportState → Option (ReportState × Desk)
  | .idle | .returned _ _ | .raised _ _ => none
  | .sourcing r =>
    if o.submit.fails then some (.raised r .other, d)
    else match check r.principalSubjectId (d.getSourceTask (r.normalized upper).sourceTaskId) with
      | .error error => some (.raised r error, d)
      | .ok source => some (.finding r source, d)
  | .finding r source =>
    if o.submit.fails then some (.raised r .other, d)
    else match d.reports.find (r.normalized upper).idempotencyKey with
      | none => some (.creating r source, d)
      | some report => some (dispatch upper sha256 r source report true, d)
  | .creating r source =>
    match o.submit.begin.fate, d.reports.add (r.anomaly upper source o) with
    | .failed, _ => some (.raised r .other, d)
    | .integrity, _ | .checked, none => some (.refinding r source, d)
    | .checked, some reports =>
      some (dispatch upper sha256 r source (r.anomaly upper source o) false, { d with reports := reports })
  | .refinding r source =>
    if o.submit.fails then some (.raised r .other, d)
    else match d.reports.find (r.normalized upper).idempotencyKey with
      | none => some (.raised r .other, d)
      | some report => some (dispatch upper sha256 r source report false, d)
  | .dispatching r report duplicate call =>
    match call.step o.submit d.world with
    | some (call', world) => some (.dispatching r report duplicate call', { d with world := world })
    | none => some (settle r report duplicate call, d)
  | .naming r report =>
    if o.submit.fails then some (.raised r .other, d)
    else
      let task := d.world.ledger.byKey (dispatchKey sha256 (r.normalized upper).idempotencyKey)
      some (.raised r (.reportQueueUnavailable report.anomalyId report.anomalyNo
        ((task.map TaskRow.taskId).getD "")), d)

/-- The report of a call that is made and not over. -/
def running : ReportState → Option Report
  | .sourcing r | .finding r _ | .creating r _ | .refinding r _ | .dispatching r _ _ _ | .naming r _ => some r
  | _ => none

end ReportState

/-! ### The system -/

structure Reports where
  desk : Desk
  calls : ℕ → ReportState

inductive ReportAction where
  | report (p : ℕ) (r : Report)
  | advance (p : ℕ) (o : ReportOutcome)
  | interrupt (p : ℕ)
  | assign (row : TaskRow)
  | work (taskId : String) (status : TaskStatus) (started completed : Bool) (now : ℕ)
  | steer (row : RuntimeThread)
  | editOrder (id : ℤ) (order : Order)
  | editVehicle (id : String) (assignedDriverId : Option String)
  deriving DecidableEq, Repr

def Desk.keep (d : Desk) (ledger : Ledger) : Desk := { d with world := { d.world with ledger := ledger } }

namespace Reports

/-- The state after an action, `none` when it is not enabled.  The workers and the reviewers write any
status at any time. -/
def step (s : Reports) : ReportAction → Option Reports
  | .report p r =>
    match s.calls p with
    | .idle => some { s with calls := update s.calls p (.sourcing r) }
    | _ => none
  | .advance p o =>
    (ReportState.step upper sha256 o s.desk (s.calls p)).map fun (st, desk) =>
      { desk := desk, calls := update s.calls p st }
  | .interrupt p =>
    (s.calls p).running.map fun r => { s with calls := update s.calls p (.raised r .other) }
  | .assign row =>
    (s.desk.world.ledger.insertTask row).map fun ledger => { s with desk := s.desk.keep ledger }
  | .work taskId status started completed now =>
    (s.desk.world.ledger.setStatus taskId status started completed now).map fun ledger =>
      { s with desk := s.desk.keep ledger }
  | .steer row => (s.desk.world.ledger.steer row).map fun ledger => { s with desk := s.desk.keep ledger }
  | .editOrder id order => (s.desk.orders id).map fun _ =>
    { s with desk := { s.desk with orders := update s.desk.orders id (some order) } }
  | .editVehicle id driver =>
    some { s with desk := { s.desk with vehicles := update s.desk.vehicles id (some driver) } }

/-- Other services write their tasks under keys that do not have the prefix of the keys of reports. -/
def Apart : ReportAction → Prop
  | .assign row => "anomaly-report:".toList.isPrefixOf row.idempotencyKey.toList = false
  | _ => True

/-- Where runs begin: no call, no report, and no task of one. -/
structure Initial (s : Reports) : Prop where
  idle : ∀ p, s.calls p = .idle
  reports : s.desk.reports.rows = []
  tasks : ∀ row ∈ s.desk.world.ledger.tasks.rows, ∀ key, row.idempotencyKey ≠ dispatchKey sha256 key

end Reports

end CountyFlow.AnomalyReports
