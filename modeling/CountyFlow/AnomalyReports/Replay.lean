import Mathlib.Logic.Equiv.Basic
import CountyFlow.AnomalyReports.Service
import CountyFlow.Submission.Standing

/-!
# Reports that are sent again

What an answer to a report rests on stays: the stored report, the task that was begun under the key made
from its key, and the order and the assignee of both.  What may have changed since is what a call reads of
the source task before it looks the key up, and it builds its request from that.
-/

namespace CountyFlow.AnomalyReports

open CountyFlow.Lib CountyFlow.Runtime CountyFlow.Submission Function
open CountyFlow.Worker (TaskStatus)

variable {upper sha256 : String → String}

/-! ### The tables -/

structure Desk.Stores (upper : String → String) (d : Desk) (r : Report) (report : Anomaly) : Prop where
  stored : report ∈ d.reports.rows
  command : report.toAnomalyReportCommand = r.normalized upper
  reporter : report.reportedBySubjectId = r.principalSubjectId

/-- The task is of the order, assigned to the reporter, and not of an anomaly itself. -/
structure Desk.Rooted (d : Desk) (taskId reporter : String) (orderId : ℤ) : Prop where
  source : ∃ a ∈ d.world.ledger.begun, a.taskId = taskId ∧ a.orderId = orderId ∧ a.anomalyId = none ∧
    a.assigneeSubjectId = some reporter
  order : (d.orders orderId).isSome = true

/-- The task was begun for the report. -/
def Anomaly.Begins (report : Anomaly) (a : BeginArgs) : Prop :=
  a.orderId = report.orderId ∧ a.anomalyId = some report.anomalyId ∧
    a.assigneeSubjectId = some report.reportedBySubjectId

/-- Every report is about a task of its reporter, and a task under the key of a report is of that report. -/
structure Desk.Sound (sha256 : String → String) (d : Desk) : Prop where
  rooted : ∀ report ∈ d.reports.rows, d.Rooted report.sourceTaskId report.reportedBySubjectId report.orderId
  dispatched : ∀ a ∈ d.world.ledger.begun, ∀ key, a.idempotencyKey = dispatchKey sha256 key →
    ∃ report ∈ d.reports.rows, report.key = key ∧ report.Begins a

/-- Nothing is lost. -/
structure Desk.Later (d d' : Desk) : Prop where
  world : d.world.Later d'.world
  orders : ∀ id, (d.orders id).isSome = true → (d'.orders id).isSome = true
  reports : d.reports.rows ⊆ d'.reports.rows

theorem World.Later.refl (w : World) : w.Later w := ⟨List.Subset.refl _, rfl⟩

theorem Desk.Later.refl (d : Desk) : d.Later d := ⟨World.Later.refl _, fun _ h => h, List.Subset.refl _⟩

variable {taskId who : String} {q : SubmitRequest} {duplicate : Bool} {found : Option SourceTaskContext}

section

variable {d d' : Desk} {r : Report} {report report' : Anomaly} {source : SourceTaskContext}

theorem Desk.Stores.mono (h : d.Stores upper r report) (hd : d.Later d') : d'.Stores upper r report :=
  ⟨hd.reports h.stored, h.command, h.reporter⟩

theorem Desk.Rooted.mono {reporter : String} {orderId : ℤ} (h : d.Rooted taskId reporter orderId)
    (hd : d.Later d') : d'.Rooted taskId reporter orderId := by
  obtain ⟨⟨a, ha, hof⟩, horder⟩ := h
  exact ⟨⟨a, hd.world.begun ha, hof⟩, hd.orders _ horder⟩

theorem Desk.Stores.key (h : d.Stores upper r report) : report.key = (r.normalized upper).idempotencyKey :=
  congrArg AnomalyReportCommand.idempotencyKey h.command

theorem Desk.Stores.eq (h : d.Stores upper r report) (hmem : report' ∈ d.reports.rows)
    (hkey : report'.key = (r.normalized upper).idempotencyKey) : report' = report := by
  have hfind := Table.find_of_mem h.stored
  rw [h.key, ← hkey, Table.find_of_mem hmem] at hfind
  exact Option.some.inj hfind

/-- The order of a task stays, so a report of it has the order that is read of it again. -/
theorem Desk.Sound.orderId (hs : d.Sound sha256) (h : d.Stores upper r report)
    (hid : source.taskId = (r.normalized upper).sourceTaskId)
    (hsource : d.Rooted source.taskId r.principalSubjectId source.orderId) :
      source.orderId = report.orderId := by
  obtain ⟨a, ha, hida, horder, -⟩ := hsource.source
  obtain ⟨b, hb, hidb, horder', -⟩ := (hs.rooted report h.stored).source
  have hsame : a.taskId = b.taskId := by
    rw [hida, hidb, hid]
    exact (congrArg AnomalyReportCommand.sourceTaskId h.command).symm
  rw [← horder, ← horder', Ledger.begun_eq_of_id ha hb hsame]

theorem dispatchKey_injective (hinj : Injective sha256) : Injective (dispatchKey sha256) :=
  fun _ _ h => hinj (String.append_right_inj _ |>.mp h)

theorem isPrefixOf_dispatchKey (key : String) :
    "anomaly-report:".toList.isPrefixOf (dispatchKey sha256 key).toList = true := by
  rw [List.isPrefixOf_iff_prefix, dispatchKey, String.toList_append]
  exact List.prefix_append _ _

/-! ### A call -/

/-- The request is one of the report, and was accepted. -/
def Report.Asks (upper sha256 : String → String) (r : Report) (report : Anomaly) (q : SubmitRequest) : Prop :=
  ∃ source : SourceTaskContext, source.orderId = report.orderId ∧ q = r.request upper sha256 source report ∧
    q.Valid

/-- The anomaly and the task that a call names to its client. -/
structure Named where
  anomalyId : ℤ
  anomalyNo : String
  taskId : String
  deriving DecidableEq, Repr

def Desk.Names (upper sha256 : String → String) (d : Desk) (r : Report) (named : Named) : Prop :=
  ∃ report, d.Stores upper r report ∧ named.anomalyId = report.anomalyId ∧
    named.anomalyNo = report.anomalyNo ∧ ∃ q, r.Asks upper sha256 report q ∧ q.Names d.world named.taskId

theorem Desk.Names.mono {named : Named} (h : d.Names upper sha256 r named) (hd : d.Later d') :
    d'.Names upper sha256 r named := by
  obtain ⟨report, hstores, hid, hno, q, hasks, hnames⟩ := h
  exact ⟨report, hstores.mono hd, hid, hno, q, hasks, hnames.mono hd.world⟩

/-- The task that is read for the exception is there. -/
theorem Report.Asks.names {t : String} (hasks : r.Asks upper sha256 report q)
    (h : q.Names d.world t) : q.Names d.world
      (((d.world.ledger.byKey (dispatchKey sha256 (r.normalized upper).idempotencyKey)).map
      TaskRow.taskId).getD "") := by
  obtain ⟨hstaffed, a, ha, -, hkey⟩ := h
  obtain ⟨source, -, rfl, -⟩ := hasks
  obtain ⟨row, hrow, rfl⟩ := Ledger.byKey_of_begun ha
  rw [show dispatchKey sha256 (r.normalized upper).idempotencyKey = _ from hkey.symm, hrow]
  exact ⟨hstaffed, row.args, ha, rfl, hkey⟩

namespace ReportState

variable {st st' : ReportState} {o : ReportOutcome}

/-- What a call has named, in its result or in the exception about the queue. -/
def named : ReportState → Option (Report × Named)
  | .returned r result => some (r, ⟨result.anomalyId, result.anomalyNo, result.taskId⟩)
  | .raised r (.reportQueueUnavailable anomalyId anomalyNo taskId) => some (r, ⟨anomalyId, anomalyNo, taskId⟩)
  | _ => none

/-- What a call has read and written. -/
def Held (upper sha256 : String → String) (d : Desk) : ReportState → Prop
  | .finding r source | .creating r source | .refinding r source =>
    source.taskId = (r.normalized upper).sourceTaskId ∧
    d.Rooted source.taskId r.principalSubjectId source.orderId
  | .dispatching r report _ call =>
    d.Stores upper r report ∧ ∃ q, r.Asks upper sha256 report q ∧ call.Knows d.world q
  | .naming r report => d.Stores upper r report ∧ ∃ q, r.Asks upper sha256 report q ∧ ∃ t, q.Names d.world t
  | .returned r result => d.Names upper sha256 r ⟨result.anomalyId, result.anomalyNo, result.taskId⟩
  | .raised r (.reportQueueUnavailable anomalyId anomalyNo taskId) =>
    d.Names upper sha256 r ⟨anomalyId, anomalyNo, taskId⟩
  | _ => True

theorem Held.mono (h : st.Held upper sha256 d) (hd : d.Later d') : st.Held upper sha256 d' := by
  cases st with
  | finding r source => exact ⟨h.1, h.2.mono hd⟩
  | creating r source => exact ⟨h.1, h.2.mono hd⟩
  | refinding r source => exact ⟨h.1, h.2.mono hd⟩
  | dispatching r report duplicate call =>
    obtain ⟨hstores, q, hasks, hknows⟩ := h
    exact ⟨hstores.mono hd, q, hasks, hknows.mono hd.world⟩
  | naming r report =>
    obtain ⟨hstores, q, hasks, t, hnames⟩ := h
    exact ⟨hstores.mono hd, q, hasks, t, hnames.mono hd.world⟩
  | returned r result => exact Desk.Names.mono h hd
  | raised r error =>
    cases error with
    | reportQueueUnavailable => exact Desk.Names.mono h hd
    | _ => trivial
  | _ => trivial

theorem Held.names {named : Named} (h : st.Held upper sha256 d) (hnamed : st.named = some (r, named)) :
    d.Names upper sha256 r named := by
  unfold ReportState.named at hnamed
  split at hnamed <;> cases hnamed <;> exact h

/-- With the report of its key at hand a call goes on with that report, or raises. -/
theorem held_dispatch (hs : d.Sound sha256) (hmem : report ∈ d.reports.rows)
    (hkey : report.key = (r.normalized upper).idempotencyKey)
    (hid : source.taskId = (r.normalized upper).sourceTaskId)
    (hsource : d.Rooted source.taskId r.principalSubjectId source.orderId) :
    (dispatch upper sha256 r source report duplicate).Held upper sha256 d := by
  unfold dispatch
  split
  · rename_i hsame
    obtain ⟨hcommand, hreporter⟩ := of_decide_eq_true hsame
    rw [← hkey] at hcommand
    have hstores : d.Stores upper r report := ⟨hmem, hcommand, hreporter⟩
    split
    · rename_i hvalid
      exact ⟨hstores, _, ⟨source, hs.orderId hstores hid hsource, rfl, hvalid⟩, rfl⟩
    · trivial
  · trivial

theorem getSourceTask_eq_some (h : d.getSourceTask taskId = some source) :
    ∃ task, d.world.ledger.tasks.find taskId = some task ∧ source.taskId = task.taskId ∧
      source.orderId = task.orderId ∧ source.assigneeSubjectId = task.assigneeSubjectId ∧
      source.canReportAnomaly = task.anomalyId.isNone ∧ (d.orders task.orderId).isSome = true := by
  obtain ⟨task, htask, h⟩ := Option.bind_eq_some_iff.mp h
  obtain ⟨order, horder, rfl⟩ := Option.map_eq_some_iff.mp h
  exact ⟨task, htask, rfl, rfl, rfl, rfl, Option.isSome_of_mem horder⟩

/-- What the checks let through. -/
theorem check_eq_ok (h : check who found = .ok source) :
    found = some source ∧ source.assigneeSubjectId = some who ∧ source.canReportAnomaly = true := by
  unfold check at h
  split at h
  · cases h
  · split at h
    · cases h
    · rename_i hassignee
      split at h
      · cases h
      · rename_i hcan
        split at h
        · cases h
        · split at h <;> cases h
          exact ⟨rfl, not_ne_iff.mp hassignee, by simpa using hcan⟩

theorem held_of_check {error : ReportError}
    (h : check who found = .error error) : Held upper sha256 d (.raised r error) := by
  unfold check at h
  split at h
  · cases h
    trivial
  · split_ifs at h <;> cases h <;> trivial

theorem rooted_of_check (h : check who (d.getSourceTask taskId) = .ok source) :
    source.taskId = taskId ∧ d.Rooted source.taskId who source.orderId := by
  obtain ⟨hfound, hassignee, hcan⟩ := check_eq_ok h
  obtain ⟨task, htask, hid, horder, hassignee', hcan', hsome⟩ := getSourceTask_eq_some hfound
  obtain ⟨hmem, hkey⟩ := Ledger.begun_of_find htask
  refine ⟨hid.trans hkey, ⟨task.args, hmem, hid.symm, horder.symm, ?_, ?_⟩, horder ▸ hsome⟩
  · rw [hcan'] at hcan
    exact Option.isNone_iff_eq_none.mp hcan
  · exact hassignee'.symm.trans hassignee

theorem held_settle {call : SubmitState} (hstores : d.Stores upper r report)
    (hasks : r.Asks upper sha256 report q) (hknows : call.Knows d.world q) :
    (settle r report duplicate call).Held upper sha256 d := by
  unfold settle
  split
  · exact ⟨report, hstores, rfl, rfl, q, hasks, hknows.2⟩
  · trivial
  · exact ⟨hstores, q, hasks, hknows.2⟩
  all_goals trivial

/-- A submission begins a task of its report, if any. -/
theorem sound_writes {w : World} (hinj : Injective sha256) (hs : d.Sound sha256)
    (hstores : d.Stores upper r report) (hasks : r.Asks upper sha256 report q)
    (hwrites : d.world.Writes w q) :
    d.Later { d with world := w } ∧ Desk.Sound sha256 { d with world := w } := by
  have hlater : d.Later { d with world := w } := ⟨hwrites.later, fun _ h => h, List.Subset.refl _⟩
  refine ⟨hlater, fun report' hmem => (hs.rooted report' hmem).mono hlater, fun a ha key hkey => ?_⟩
  obtain hsame | ⟨t, hnew⟩ := hwrites.begun
  · exact hs.dispatched a (hsame ▸ ha) key hkey
  · rw [show (Desk.world { d with world := w }).ledger.begun = _ from hnew] at ha
    rcases List.mem_append.mp ha with hold | hlast
    · exact hs.dispatched a hold key hkey
    · obtain rfl := List.mem_singleton.mp hlast
      obtain ⟨source, horder, rfl, -⟩ := hasks
      refine ⟨report, hstores.stored, hstores.key.trans (dispatchKey_injective hinj hkey), horder, rfl, ?_⟩
      rw [hstores.reporter]
      rfl

theorem sound_add {reports : Table Anomaly Anomaly.key} (hs : d.Sound sha256)
    (hadd : d.reports.add report = some reports)
    (hrooted : d.Rooted report.sourceTaskId report.reportedBySubjectId report.orderId) :
    d.Later { d with reports := reports } ∧ Desk.Sound sha256 { d with reports := reports } := by
  have hrows := Table.rows_add hadd
  have hlater : d.Later { d with reports := reports } :=
    ⟨World.Later.refl _, fun _ h => h, hrows ▸ List.subset_append_left _ _⟩
  refine ⟨hlater, fun report' hmem => ?_, fun a ha key hkey => ?_⟩
  · rw [show (Desk.reports { d with reports := reports }).rows = _ from hrows] at hmem
    rcases List.mem_append.mp hmem with hold | hlast
    · exact (hs.rooted report' hold).mono hlater
    · rw [List.mem_singleton.mp hlast]
      exact hrooted.mono hlater
  · obtain ⟨report', hmem, hof⟩ := hs.dispatched a ha key hkey
    exact ⟨report', hlater.reports hmem, hof⟩

/-- One step of a report: the desk only gains, and the call knows what it has read. -/
theorem step_held (hinj : Injective sha256) (hs : d.Sound sha256) (h : st.Held upper sha256 d)
    (hstep : step upper sha256 o d st = some (st', d')) : d.Later d' ∧ d'.Sound sha256 ∧
    st'.Held upper sha256 d' := by
  have hsame : ∀ {st₁ : ReportState}, st₁.Held upper sha256 d →
      d.Later d ∧ d.Sound sha256 ∧ st₁.Held upper sha256 d := fun h₁ => ⟨Desk.Later.refl d, hs, h₁⟩
  cases st with
  | idle | returned | raised => cases hstep
  | sourcing r =>
    simp only [step] at hstep
    split at hstep
    · cases hstep
      exact hsame trivial
    · split at hstep <;> rename_i hcheck <;> cases hstep
      · exact hsame (held_of_check hcheck)
      · exact hsame (rooted_of_check hcheck)
  | finding r source =>
    simp only [step] at hstep
    split at hstep
    · cases hstep
      exact hsame trivial
    · split at hstep <;> rename_i hfind <;> cases hstep
      · exact hsame h
      · exact hsame (held_dispatch hs (Table.find_mem hfind) (Table.find_key hfind) h.1 h.2)
  | creating r source =>
    simp only [step] at hstep
    split at hstep
    · cases hstep
      exact hsame trivial
    · cases hstep
      exact hsame h
    · cases hstep
      exact hsame h
    · rename_i reports _ hadd
      cases hstep
      obtain ⟨hlater, hsound⟩ := sound_add hs hadd h.2
      refine ⟨hlater, hsound, held_dispatch hsound ?_ rfl h.1 (h.2.mono hlater)⟩
      rw [show (Desk.reports { d with reports := reports }).rows = _ from Table.rows_add hadd]
      exact List.mem_append_right _ (List.mem_singleton_self _)
  | refinding r source =>
    simp only [step] at hstep
    split at hstep
    · cases hstep
      exact hsame trivial
    · split at hstep <;> rename_i hfind <;> cases hstep
      · exact hsame trivial
      · exact hsame (held_dispatch hs (Table.find_mem hfind) (Table.find_key hfind) h.1 h.2)
  | dispatching r report duplicate call =>
    obtain ⟨hstores, q, hasks, hknows⟩ := h
    simp only [step] at hstep
    split at hstep
    · rename_i hcall
      cases hstep
      obtain ⟨hwrites, hknows'⟩ := SubmitState.step_knows hknows hcall
      obtain ⟨hlater, hsound⟩ := sound_writes hinj hs hstores hasks hwrites
      exact ⟨hlater, hsound, hstores.mono hlater, q, hasks, hknows'⟩
    · cases hstep
      exact hsame (held_settle hstores hasks hknows)
  | naming r report =>
    obtain ⟨hstores, q, hasks, t, hnames⟩ := h
    simp only [step] at hstep
    split at hstep <;> cases hstep
    · exact hsame trivial
    · exact hsame ⟨report, hstores, rfl, rfl, q, hasks, hasks.names hnames⟩

end ReportState

end

/-! ### A report that is sent again -/

/-- Problems are reported from the state of the task, and the driver, the vehicle and the route are such as a
request may have. -/
def SourceTaskContext.reportable (source : SourceTaskContext) : Bool :=
  source.taskGroup.any (· ∈ reportableGroups) ∧ isSized 64 (source.driverId.getD "") ∧
    isSized 64 (source.vehicleId.getD "") ∧ isSized 64 (source.routeId.getD "")

def Desk.Reportable (d : Desk) (taskId : String) : Prop :=
  ∃ source ∈ d.getSourceTask taskId, source.reportable = true

/-- The report is stored and its task is begun. -/
structure Desk.Answered (upper sha256 : String → String) (d : Desk) (r : Report) (report : Anomaly)
    (a : BeginArgs) :
    Prop where
  stores : d.Stores upper r report
  asks : ∃ q, r.Asks upper sha256 report q ∧ q.Staffed d.world
  begun : a ∈ d.world.ledger.begun
  key : a.idempotencyKey = dispatchKey sha256 (r.normalized upper).idempotencyKey
  begins : report.Begins a

namespace ReportState

variable {d d' : Desk} {r : Report} {report : Anomaly} {a : BeginArgs} {source : SourceTaskContext}
  {st st' : ReportState} {o : ReportOutcome}

/-- A key has one report and one task. -/
theorem answered_same {r' : Report} {report' : Anomaly} {a' : BeginArgs}
    (h : d.Answered upper sha256 r report a) (h' : d.Answered upper sha256 r' report' a')
    (hkey : (r'.normalized upper).idempotencyKey = (r.normalized upper).idempotencyKey) : report' = report ∧
      a' = a := by
  refine ⟨h.stores.eq h'.stores.stored (h'.stores.key.trans hkey), Ledger.begun_eq h'.begun h.begun ?_⟩
  rw [h'.key, h.key, hkey]

theorem answered_mono (h : d.Answered upper sha256 r report a) (hd : d.Later d') :
    d'.Answered upper sha256 r report a := by
  obtain ⟨q, hasks, hstaffed⟩ := h.asks
  refine ⟨h.stores.mono hd, ⟨q, hasks, ?_⟩, hd.world.begun h.begun, h.key, h.begins⟩
  unfold SubmitRequest.Staffed
  rw [hd.world.active]
  exact hstaffed

/-- The steps left to a call that finds its report. -/
def left : ReportState → ℕ
  | .sourcing _ => 9
  | .finding _ _ => 8
  | .dispatching _ _ _ call => call.left
  | _ => 0

/-- The report whose source task a call is about to read. -/
def sources : ReportState → Option Report
  | .sourcing r => some r
  | _ => none

/-- The points of a call that sends an answered report again. -/
def Replays (upper sha256 : String → String) (r : Report) (report : Anomaly) : ReportState → Prop
  | .sourcing r' => r' = r
  | .finding r' source => r' = r ∧ (r.request upper sha256 source report).Valid
  | .dispatching r' report' duplicate call => r' = r ∧ report' = report ∧ duplicate = true ∧ 0 < call.left
  | .returned r' result => r' = r ∧ result.duplicate = true
  | _ => False

/-- Of a request only the driver, the vehicle and the route are read again. -/
theorem valid_again (hasks : r.Asks upper sha256 report q)
    (hdriver : isSized 64 (source.driverId.getD "") = true)
    (hvehicle : isSized 64 (source.vehicleId.getD "") = true)
    (hroute : isSized 64 (source.routeId.getD "") = true) : (r.request upper sha256 source report).Valid := by
  obtain ⟨before, -, rfl, hvalid⟩ := hasks
  exact ⟨hdriver, hvehicle, hroute, hvalid.anomaly, hvalid.description, hvalid.key, hvalid.status,
    hvalid.assignee, hvalid.incident, hvalid.edge⟩

theorem check_again (hs : d.Sound sha256) (h : d.Answered upper sha256 r report a)
    (hreportable : d.Reportable (r.normalized upper).sourceTaskId) :
    ∃ source, check r.principalSubjectId (d.getSourceTask (r.normalized upper).sourceTaskId) = .ok source ∧
      (r.request upper sha256 source report).Valid := by
  obtain ⟨source, hsource, hsized⟩ := hreportable
  obtain ⟨hgroup, hdriver, hvehicle, hroute⟩ := of_decide_eq_true hsized
  obtain ⟨group, hgroup, hmem⟩ := (Option.any_eq_true _ _).mp hgroup
  obtain ⟨task, htask, -, -, hassignee, hcan, -⟩ := getSourceTask_eq_some hsource
  obtain ⟨b, hb, hid, -, hanomaly, hreporter⟩ := (hs.rooted report h.stores.stored).source
  have hsame : b = task.args := by
    obtain ⟨hbegun, hkey⟩ := Ledger.begun_of_find htask
    refine Ledger.begun_eq_of_id hb hbegun ?_
    rw [hid]
    exact (congrArg AnomalyReportCommand.sourceTaskId h.stores.command).trans hkey.symm
  rw [hsame] at hanomaly hreporter
  obtain ⟨q, hasks, -⟩ := h.asks
  refine ⟨source, ?_, valid_again hasks hdriver hvehicle hroute⟩
  rw [Option.mem_def.mp hsource]
  unfold check
  have hmine : source.assigneeSubjectId = some r.principalSubjectId := by
    rw [hassignee, ← h.stores.reporter]
    exact hreporter
  have hopen : source.canReportAnomaly = true := by
    rw [hcan]
    exact Option.isNone_iff_eq_none.mpr hanomaly
  have hended : ¬ ∀ g ∈ source.taskGroup, g ∉ reportableGroups := fun hall =>
    hall group hgroup (of_decide_eq_true hmem)
  have hwhole : ¬ (source.driverId.getD "" = "" ∨ source.vehicleId.getD "" = "" ∨
    source.routeId.getD "" = "") := by
    rintro (hnone | hnone | hnone)
    · exact ne_empty_of_isSized hdriver hnone
    · exact ne_empty_of_isSized hvehicle hnone
    · exact ne_empty_of_isSized hroute hnone
  simp only [hmine, hopen, ne_eq, not_true_eq_false, Bool.true_eq_false, if_false, if_neg hended,
    if_neg hwhole]

/-- **A call that sends an answered report again goes on**, to the same report and to its task. -/
theorem replays_step (hs : d.Sound sha256) (hanswered : d.Answered upper sha256 r report a)
    (hheld : st.Held upper sha256 d) (h : st.Replays upper sha256 r report) (hfails : o.submit.fails = false)
    (hqueue : o.submit.queue = .appended)
    (hreportable : st.sources = some r → d.Reportable (r.normalized upper).sourceTaskId)
    (hstep : step upper sha256 o d st = some (st', d')) : st'.Replays upper sha256 r report ∧
      st'.left < st.left := by
  have hno : ¬ o.submit.fails = true := by rw [hfails]; exact Bool.false_ne_true
  cases st with
  | sourcing r' =>
    cases h
    obtain ⟨source, hcheck, hvalid⟩ := check_again hs hanswered (hreportable rfl)
    simp only [step, if_neg hno, hcheck] at hstep
    cases hstep
    exact ⟨⟨rfl, hvalid⟩, by simp [left]⟩
  | finding r' source =>
    obtain ⟨rfl, hvalid⟩ := h
    have hfind := Table.find_of_mem hanswered.stores.stored
    rw [hanswered.stores.key] at hfind
    have hsame : report.sameReport (r'.normalized upper) r'.principalSubjectId = true := by
      refine decide_eq_true ⟨?_, hanswered.stores.reporter⟩
      rw [hanswered.stores.command]
    simp only [step, if_neg hno, hfind, dispatch, hsame, if_true, if_pos hvalid] at hstep
    cases hstep
    exact ⟨⟨rfl, rfl, rfl, by simp [SubmitState.left]⟩, by simp [left, SubmitState.left]⟩
  | dispatching r' report' duplicate call =>
    obtain ⟨rfl, rfl, rfl, hleft⟩ := h
    obtain ⟨-, q, ⟨source, horder, rfl, -⟩, hknows⟩ := hheld
    obtain ⟨q', ⟨source', -, rfl, -⟩, hactive⟩ := hanswered.asks
    have hstaffed : (r'.request upper sha256 source report').Staffed d.world := hactive
    have hassignee : a.assigneeSubjectId = some r'.principalSubjectId := by
      rw [hanswered.begins.2.2, hanswered.stores.reporter]
    obtain ⟨q, answer, rfl⟩ | ⟨call', w, hcall, hpos, hless⟩ :=
      SubmitState.step_left hanswered.begun hanswered.key
      (hanswered.begins.1.trans horder.symm) hassignee hstaffed hknows hleft hfails hqueue
    · cases hstep
      exact ⟨⟨rfl, rfl⟩, by simp [left, settle, SubmitState.left]⟩
    · simp only [step, hcall] at hstep
      cases hstep
      exact ⟨⟨rfl, rfl, rfl, hpos⟩, hless⟩
  | returned r' result => cases hstep
  | _ => exact h.elim

theorem replays_goes_on (h : st.Replays upper sha256 r report) :
    (∃ result, st = .returned r result) ∨ st.running.isSome = true ∧ 0 < st.left := by
  cases st with
  | sourcing r' => exact .inr ⟨rfl, by simp [left]⟩
  | finding r' source => exact .inr ⟨rfl, by simp [left]⟩
  | dispatching r' report' duplicate call => exact .inr ⟨rfl, h.2.2.2⟩
  | returned r' result => exact .inl ⟨result, by rw [h.1]⟩
  | _ => exact h.elim

theorem step_isSome (hrunning : st.running.isSome = true) : (step upper sha256 o d st).isSome = true := by
  cases st with
  | sourcing r => simp only [step]; split <;> [rfl; split <;> rfl]
  | finding r source => simp only [step]; split <;> [rfl; split <;> rfl]
  | creating r source => simp only [step]; split <;> rfl
  | refinding r source => simp only [step]; split <;> [rfl; split <;> rfl]
  | dispatching r report duplicate call => simp only [step]; split <;> rfl
  | naming r report => simp only [step]; split <;> rfl
  | _ => cases hrunning

end ReportState

/-! ### Every run -/

variable {run : List ReportAction}

namespace Reports

variable {s s' s₀ : Reports} {a : ReportAction}

structure Sound (upper sha256 : String → String) (s : Reports) : Prop where
  desk : s.desk.Sound sha256
  calls : ∀ p, (s.calls p).Held upper sha256 s.desk

theorem Initial.sound (h : s.Initial sha256) : s.Sound upper sha256 := by
  refine ⟨⟨fun report hmem => ?_, fun a ha key hkey => ?_⟩, fun p => ?_⟩
  · rw [h.reports] at hmem
    cases hmem
  · obtain ⟨row, hrow, rfl⟩ := List.mem_map.mp ha
    exact absurd hkey (h.tasks row hrow key)
  · rw [h.idle p]
    trivial

theorem Sound.call {d : Desk} {p : ℕ} {st : ReportState} (hs : s.Sound upper sha256) (hlater : s.desk.Later d)
    (hd : d.Sound sha256) (hst : st.Held upper sha256 d) :
    Sound upper sha256 { desk := d, calls := update s.calls p st } := by
  refine ⟨hd, fun q => ?_⟩
  show (update s.calls p st q).Held upper sha256 d
  by_cases hq : q = p
  · subst hq
    rw [update_self]
    exact hst
  · rw [update_of_ne hq]
    exact (hs.calls q).mono hlater

/-- What everybody else does: the tables lose nothing, and gain no task under the key of a report. -/
theorem Sound.table {d : Desk} (hs : s.Sound upper sha256) (hlater : s.desk.Later d)
    (hreports : d.reports = s.desk.reports)
    (hbegun : ∀ a ∈ d.world.ledger.begun, a ∈ s.desk.world.ledger.begun ∨
      ∀ key, a.idempotencyKey ≠ dispatchKey sha256 key) :
    s.desk.Later d ∧ Sound upper sha256 { s with desk := d } := by
  refine ⟨hlater, ⟨fun report hmem => ?_, fun a ha key hkey => ?_⟩, fun p => (hs.calls p).mono hlater⟩
  · rw [show (Reports.desk { s with desk := d }).reports = _ from hreports] at hmem
    exact (hs.desk.rooted report hmem).mono hlater
  · obtain hold | hnone := hbegun a ha
    · obtain ⟨report, hmem, hof⟩ := hs.desk.dispatched a hold key hkey
      exact ⟨report, hlater.reports hmem, hof⟩
    · exact absurd hkey (hnone key)

theorem Sound.keep {ledger : Ledger} (hs : s.Sound upper sha256)
    (h : ledger.begun = s.desk.world.ledger.begun) :
    s.desk.Later (s.desk.keep ledger) ∧ Sound upper sha256 { s with desk := s.desk.keep ledger } :=
  hs.table ⟨⟨h ▸ List.Subset.refl _, rfl⟩, fun _ h => h, List.Subset.refl _⟩ rfl
    fun _ ha => Or.inl (h ▸ ha)

/-- One step of the system, by the step of the call that moves. -/
theorem step_sound (hinj : Injective sha256) (hs : s.Sound upper sha256) (hapart : Apart a)
    (h : step upper sha256 s a = some s') : s.desk.Later s'.desk ∧ s'.Sound upper sha256 := by
  cases a with
  | report p r =>
    simp only [step] at h
    split at h <;> cases h
    exact ⟨Desk.Later.refl _, hs.call (Desk.Later.refl _) hs.desk trivial⟩
  | advance p o =>
    obtain ⟨⟨st, d⟩, hstep, rfl⟩ := Option.map_eq_some_iff.mp h
    obtain ⟨hlater, hd, hst⟩ := ReportState.step_held hinj hs.desk (hs.calls p) hstep
    exact ⟨hlater, hs.call hlater hd hst⟩
  | interrupt p =>
    obtain ⟨r, -, rfl⟩ := Option.map_eq_some_iff.mp h
    exact ⟨Desk.Later.refl _, hs.call (Desk.Later.refl _) hs.desk trivial⟩
  | assign row =>
    obtain ⟨ledger, hinsert, rfl⟩ := Option.map_eq_some_iff.mp h
    have hbegun : ledger.begun = s.desk.world.ledger.begun ++ [row.args] := by
      unfold Ledger.begun
      rw [(Ledger.insertTask_ok hinsert).1, List.map_append]
      rfl
    refine hs.table ⟨⟨?_, rfl⟩, fun _ h => h, List.Subset.refl _⟩ rfl fun a ha => ?_
    · exact hbegun ▸ List.subset_append_left _ _
    · rw [show (s.desk.keep ledger).world.ledger.begun = _ from hbegun] at ha
      rcases List.mem_append.mp ha with hold | hlast
      · exact .inl hold
      · refine .inr fun key hkey => ?_
        rw [List.mem_singleton.mp hlast] at hkey
        have hprefix := @isPrefixOf_dispatchKey sha256 key
        rw [← show row.idempotencyKey = _ from hkey, show _ = false from hapart] at hprefix
        cases hprefix
  | work taskId status started completed now =>
    obtain ⟨ledger, hset, rfl⟩ := Option.map_eq_some_iff.mp h
    exact hs.keep (Ledger.begun_setStatus hset)
  | steer row =>
    obtain ⟨ledger, hsteer, rfl⟩ := Option.map_eq_some_iff.mp h
    exact hs.keep (by unfold Ledger.begun; rw [Ledger.steer_tasks hsteer])
  | editOrder id order =>
    obtain ⟨old, -, rfl⟩ := Option.map_eq_some_iff.mp h
    refine hs.table ⟨World.Later.refl _, fun i hi => ?_, List.Subset.refl _⟩ rfl fun a ha => Or.inl ha
    show (update s.desk.orders id (some order) i).isSome = true
    by_cases hid : i = id
    · rw [hid, update_self]
      rfl
    · rw [update_of_ne hid]
      exact hi
  | editVehicle id driver =>
    cases h
    exact hs.table ⟨World.Later.refl _, fun _ h => h, List.Subset.refl _⟩ rfl fun a ha => Or.inl ha

theorem sound_of_run (hinj : Injective sha256) (h₀ : s₀.Initial sha256) (hapart : ∀ a ∈ run, Apart a)
    (hrun : exec (step upper sha256) s₀ run = some s) : s.Sound upper sha256 :=
  exec_invariant (fun _ _ _ hs ha hstep => (step_sound hinj hs ha hstep).2) (meets_of_mem hapart s₀) hrun
    h₀.sound

/-- **A task under the key of a report is of that report**, in every run: the report is stored under the
key, the task has its order and its anomaly and is assigned to its reporter, and the report is about another
task of that order, which was assigned to the reporter and is of no anomaly. -/
theorem report_tasks_grounded {run : List ReportAction} (hinj : Injective sha256) (h₀ : s₀.Initial sha256)
    (hapart : ∀ a ∈ run, Apart a) (hrun : exec (step upper sha256) s₀ run = some s) {task : TaskRow}
    (htask : task ∈ s.desk.world.ledger.tasks.rows) {key : String}
      (hkey : task.idempotencyKey = dispatchKey sha256 key) :
    ∃ report ∈ s.desk.reports.rows, report.key = key ∧ task.anomalyId = some report.anomalyId ∧
      task.orderId = report.orderId ∧ task.assigneeSubjectId = some report.reportedBySubjectId ∧
      ∃ source ∈ s.desk.world.ledger.tasks.rows, source.taskId = report.sourceTaskId ∧
        source.taskId ≠ task.taskId ∧ source.orderId = report.orderId ∧ source.anomalyId = none ∧
        source.assigneeSubjectId = some report.reportedBySubjectId := by
  have hs : s.desk.Sound sha256 := (sound_of_run hinj h₀ hapart hrun).desk
  obtain ⟨report, hmem, hreport, horder, hanomaly, hassignee⟩ :=
    hs.dispatched task.args (Ledger.begun_of_mem htask) key hkey
  obtain ⟨a, ha, hid, hof⟩ := (hs.rooted report hmem).source
  obtain ⟨source, hsource, rfl⟩ := List.mem_map.mp ha
  refine ⟨report, hmem, hreport, hanomaly, horder, hassignee, source, hsource, hid, fun hsame => ?_, hof⟩
  have heq := Ledger.begun_eq_of_id ha (Ledger.begun_of_mem htask) hsame
  rw [heq] at hof
  rw [hof.2.1] at hanomaly
  cases hanomaly

instance : (a : ReportAction) → Decidable (Apart a)
  | .assign row => inferInstanceAs
      (Decidable ("anomaly-report:".toList.isPrefixOf row.idempotencyKey.toList = false))
  | .report _ _ | .advance _ _ | .interrupt _ | .work _ _ _ _ _ | .steer _ | .editOrder _ _
      | .editVehicle _ _ =>
    isTrue trivial

/-- The digest of the example's key, as one that is injective. -/
def digest : String → String :=
  Equiv.swap "report-1" "8f6decfb25303bbe670581f55c846b5a24109568fa487e446bca3144b0bffc6a"

theorem digest_injective : Injective digest := (Equiv.swap _ _).injective

def sourceTask : TaskRow := ⟨"TASK-1", 7, none, .processing, "order-7", some "driver-1", none, none⟩

theorem unique_sourceTask : ([sourceTask].map TaskRow.taskId).Nodup := List.nodup_singleton _

theorem unique_sourceKey : ([sourceTask].map TaskRow.idempotencyKey).Nodup := List.nodup_singleton _

/-- One task, of an order with all that a report needs. -/
def delivering : Reports where
  desk :=
    { world := ⟨⟨⟨[sourceTask], unique_sourceTask⟩, unique_sourceKey, .empty, List.nodup_nil, .empty⟩, [],
      fun _ => true⟩
      orders := fun id => if id = 7 then some ⟨some "driver-1", some "V-001", some "R-1", none, none⟩
        else none
      vehicles := fun _ => none
      reports := .empty }
  calls := fun _ => .idle

theorem delivering_initial : delivering.Initial digest := by
  refine ⟨fun _ => rfl, rfl, fun row hrow key hkey => ?_⟩
  have hprefix := @isPrefixOf_dispatchKey digest key
  rw [← hkey, List.mem_singleton.mp hrow] at hprefix
  revert hprefix
  decide

def exampleReport : Report where
  principalSubjectId := "driver-1"
  command :=
    { sourceTaskId := "TASK-1", anomalyType := "ROAD_BLOCKED", description := "road is blocked",
      locationText := "N04"
      reportedVehicleStatus := "NORMAL", severity := "HIGH", idempotencyKey := "report-1",
        incidentNodeId := none
      affectedEdgeId := some "E04" }

/-- The example's report is made, and answered if the queue takes its task. -/
def reporting (queue : QueueOutcome) : List ReportAction :=
  .report 0 exampleReport ::
    List.replicate 15 (.advance 0 ⟨{ Submissions.fine "TASK-2" with queue := queue }, 1, "ANOM-1"⟩)

theorem report_tasks_grounded_reporting : ∃ s, exec (step id digest) delivering (reporting .appended) =
    some s ∧
    ∃ task ∈ s.desk.world.ledger.tasks.rows, ∃ report ∈ s.desk.reports.rows, report.key = "report-1" ∧
      task.anomalyId = some report.anomalyId := by
  have hx : (exec (step id digest) delivering (reporting .appended)).map
    (fun s => s.desk.world.ledger.tasks.rows.any
      fun task => task.idempotencyKey = dispatchKey digest "report-1") = some true := by decide +kernel
  obtain ⟨s, hs, hx⟩ := Option.map_eq_some_iff.mp hx
  obtain ⟨task, htask, hkey⟩ := List.any_eq_true.mp hx
  obtain ⟨report, hmem, hreport, hanomaly, -⟩ :=
    report_tasks_grounded digest_injective delivering_initial (by decide) hs htask (of_decide_eq_true hkey)
  exact ⟨s, hs, task, htask, report, hmem, hreport, hanomaly⟩

/-- The queue and the database are there for the call and nothing interrupts it, the source task of its
report is reportable when the call reads it, and other services keep to keys of their own. -/
def Undisturbed (upper : String → String) (j : ℕ) (r : Report) (s : Reports) : ReportAction → Prop
  | .advance p o => p = j → o.submit.fails = false ∧ o.submit.queue = .appended ∧
      ((s.calls j).sources = some r → s.desk.Reportable (r.normalized upper).sourceTaskId)
  | .interrupt p => p ≠ j
  | a => Apart a

instance (j : ℕ) (r : Report) (s : Reports) : (a : ReportAction) → Decidable (s.Undisturbed upper j r a)
  | .advance p o => inferInstanceAs (Decidable (p = j → o.submit.fails = false ∧ o.submit.queue = .appended ∧
      ((s.calls j).sources = some r →
        ∃ source ∈ s.desk.getSourceTask (r.normalized upper).sourceTaskId, source.reportable = true)))
  | .interrupt p => inferInstanceAs (Decidable (p ≠ j))
  | .assign row => inferInstanceAs (Decidable (Apart (.assign row)))
  | .report _ _ | .work _ _ _ _ _ | .steer _ | .editOrder _ _ | .editVehicle _ _ => isTrue trivial

theorem Undisturbed.apart {j : ℕ} {r : Report} (h : s.Undisturbed upper j r a) : Apart a := by
  cases a with
  | advance p o => trivial
  | interrupt p => trivial
  | _ => exact h

def advances (j : ℕ) : ReportAction → Bool
  | .advance p _ => p = j
  | _ => false

/-- A call sends an answered report again. -/
structure Replaying (upper sha256 : String → String) (j : ℕ) (r : Report) (report : Anomaly) (a : BeginArgs)
    (s : Reports) : Prop where
  sound : s.Sound upper sha256
  answered : s.desk.Answered upper sha256 r report a
  replays : (s.calls j).Replays upper sha256 r report

variable {j : ℕ} {r : Report} {report : Anomaly} {b : BeginArgs}

/-- A replay keeps its answer and comes nearer to its end with each of its steps. -/
theorem step_replaying (hinj : Injective sha256) (hs : s.Replaying upper sha256 j r report b)
    (hok : s.Undisturbed upper j r a) (h : step upper sha256 s a = some s') :
    s'.Replaying upper sha256 j r report b ∧
      (s'.calls j).left + (if advances j a then 1 else 0) ≤ (s.calls j).left := by
  obtain ⟨hlater, hsound⟩ := step_sound hinj hs.sound hok.apart h
  have hanswered := ReportState.answered_mono hs.answered hlater
  have hstays : s'.calls j = s.calls j → advances j a = false → s'.Replaying upper sha256 j r report b ∧
      (s'.calls j).left + (if advances j a then 1 else 0) ≤ (s.calls j).left := by
    intro hcall hother
    refine ⟨⟨hsound, hanswered, ?_⟩, ?_⟩
    · rw [hcall]
      exact hs.replays
    · rw [hcall, hother]
      exact Nat.le_refl _
  cases a with
  | report p r' =>
    simp only [step] at h
    split at h <;> rename_i hidle <;> cases h
    refine hstays (update_of_ne (fun hp => ?_) _ _) rfl
    have hreplays := hs.replays
    rw [hp, hidle] at hreplays
    exact hreplays
  | advance p o =>
    obtain ⟨⟨st, d⟩, hstep, rfl⟩ := Option.map_eq_some_iff.mp h
    by_cases hp : p = j
    · subst hp
      obtain ⟨hfails, hqueue, hreportable⟩ := hok rfl
      obtain ⟨hreplays, hless⟩ :=
        ReportState.replays_step hs.sound.desk hs.answered (hs.sound.calls p) hs.replays hfails
        hqueue hreportable hstep
      have hst : update s.calls p st p = st := update_self ..
      refine ⟨⟨hsound, hanswered, ?_⟩, ?_⟩
      · show (update s.calls p st p).Replays upper sha256 r report
        rw [hst]
        exact hreplays
      · show (update s.calls p st p).left + _ ≤ _
        rw [hst]
        simpa [advances] using hless
    · exact hstays (update_of_ne (Ne.symm hp) _ _) (decide_eq_false hp)
  | interrupt p =>
    obtain ⟨r', -, rfl⟩ := Option.map_eq_some_iff.mp h
    exact hstays (update_of_ne (Ne.symm hok) _ _) rfl
  | assign row =>
    obtain ⟨ledger, -, rfl⟩ := Option.map_eq_some_iff.mp h
    exact hstays rfl rfl
  | work taskId status started completed now =>
    obtain ⟨ledger, -, rfl⟩ := Option.map_eq_some_iff.mp h
    exact hstays rfl rfl
  | steer row =>
    obtain ⟨ledger, -, rfl⟩ := Option.map_eq_some_iff.mp h
    exact hstays rfl rfl
  | editOrder id order =>
    obtain ⟨old, -, rfl⟩ := Option.map_eq_some_iff.mp h
    exact hstays rfl rfl
  | editVehicle id driver =>
    cases h
    exact hstays rfl rfl

theorem run_replaying (hinj : Injective sha256) (hs : s.Replaying upper sha256 j r report b)
    (hok : Meets (step upper sha256) (Undisturbed upper j r) s run)
    (hrun : exec (step upper sha256) s run = some s') :
    s'.Replaying upper sha256 j r report b ∧ (s'.calls j).left + run.countP (advances j) ≤
      (s.calls j).left := by
  induction run generalizing s with
  | nil =>
    cases hrun
    exact ⟨hs, Nat.le_refl _⟩
  | cons a run ih =>
    obtain ⟨m, hm, hrest⟩ := exec_cons_eq_some.mp hrun
    obtain ⟨hreplaying, hless⟩ := step_replaying hinj hs hok.1 hm
    obtain ⟨hlast, hcount⟩ := ih hreplaying (hok.2 m hm) hrest
    rw [List.countP_cons]
    exact ⟨hlast, by omega⟩

/-- What a named report rests on. -/
theorem Sound.answered {i : ℕ} {named : Named} (hs : s.Sound upper sha256)
    (hi : (s.calls i).named = some (r, named)) :
    ∃ report a, s.desk.Answered upper sha256 r report a ∧
      named = ⟨report.anomalyId, report.anomalyNo, a.taskId⟩ := by
  obtain ⟨report, hstores, hid, hno, q, hasks, hstaffed, a, ha, htask, hkey⟩ := (hs.calls i).names hi
  obtain ⟨source, horder, rfl, hvalid⟩ := hasks
  obtain ⟨report', hmem, hreport, hbegins⟩ := hs.desk.dispatched a ha _ hkey
  obtain rfl := hstores.eq hmem hreport
  refine ⟨report', a, ⟨hstores, ⟨_, ⟨source, horder, rfl, hvalid⟩, hstaffed⟩, ha, hkey, hbegins⟩, ?_⟩
  rw [← hid, ← hno, htask]

/-- **A named report that is sent again is answered with the same names.**  After any run in which the call
`i` was answered, or raised that the queue is unavailable, the call `j` sends the same report of the same
principal; in the run that follows nothing disturbs `j`, and the source task is reportable when `j` reads
it.  Then `j` raises nothing, it can always go on until it is answered, it is answered after nine steps of
its own, with the anomaly and the task that `i` named and as a duplicate, and the key has one report and one
task. -/
theorem named_report_replays {first more : List ReportAction} {s₁ : Reports} {i : ℕ} {named : Named}
    (hinj : Injective sha256) (h₀ : s₀.Initial sha256) (hapart : ∀ a ∈ first, Apart a)
    (hfirst : exec (step upper sha256) s₀ first = some s₁) (hi : (s₁.calls i).named = some (r, named))
    (hok : Meets (step upper sha256) (Undisturbed upper j r) s₁ (.report j r :: more))
    (hmore : exec (step upper sha256) s₁ (.report j r :: more) = some s) :
    (∀ r' error, s.calls j ≠ .raised r' error) ∧
      (∀ again, s.calls j = .returned r again →
        (s.calls j).named = some (r, named) ∧ again.duplicate = true) ∧
      ((∃ again, s.calls j = .returned r again) ∨
        (∀ o, (step upper sha256 s (.advance j o)).isSome = true) ∧ more.countP (advances j) < 9) ∧
      (s.desk.reports.rows.map Anomaly.key).count (r.normalized upper).idempotencyKey = 1 ∧
      (s.desk.world.ledger.tasks.rows.map TaskRow.idempotencyKey).count
        (dispatchKey sha256 (r.normalized upper).idempotencyKey) = 1 := by
  have hs₁ : s₁.Sound upper sha256 := sound_of_run hinj h₀ hapart hfirst
  obtain ⟨report, b, hanswered, rfl⟩ := hs₁.answered hi
  obtain ⟨m, hm, hrest⟩ := exec_cons_eq_some.mp hmore
  have hstart : m = { s₁ with calls := update s₁.calls j (.sourcing r) } := by
    simp only [step] at hm
    split at hm <;> cases hm
    rfl
  have hcall : m.calls j = .sourcing r := by
    rw [hstart]
    exact update_self ..
  have hreplaying : m.Replaying upper sha256 j r report b := by
    obtain ⟨hlater, hsound⟩ := step_sound hinj hs₁ hok.1.apart hm
    refine ⟨hsound, ReportState.answered_mono hanswered hlater, ?_⟩
    rw [hcall]
    rfl
  obtain ⟨⟨hsound, hstill, hreplays⟩, hcount⟩ := run_replaying hinj hreplaying (hok.2 m hm) hrest
  rw [hcall] at hcount
  refine ⟨fun r' error h => ?_, fun again h => ?_, ?_, ?_, ?_⟩
  · rw [h] at hreplays
    exact hreplays
  · rw [h] at hreplays
    have hnamed : (s.calls j).named = some (r, ⟨again.anomalyId, again.anomalyNo, again.taskId⟩) := by
      rw [h]
      rfl
    obtain ⟨report', a, hagain, hsame⟩ := hsound.answered hnamed
    rw [hnamed, hsame, (ReportState.answered_same hstill hagain rfl).1,
      (ReportState.answered_same hstill hagain rfl).2]
    exact ⟨rfl, hreplays.2⟩
  · obtain hreturned | ⟨hrunning, hpos⟩ := ReportState.replays_goes_on hreplays
    · exact .inl hreturned
    · refine .inr ⟨fun o => ?_, ?_⟩
      · show (Option.map _ _).isSome = true
        rw [Option.isSome_map]
        exact ReportState.step_isSome hrunning
      · have hnine : (ReportState.sourcing r).left = 9 := rfl
        omega
  · refine List.count_eq_one_of_mem s.desk.reports.unique ?_
    exact List.mem_map.mpr ⟨report, hstill.stores.stored, hstill.stores.key⟩
  · refine List.count_eq_one_of_mem s.desk.world.ledger.keys_nodup ?_
    obtain ⟨row, hrow, hargs⟩ := List.mem_map.mp hstill.begun
    exact List.mem_map.mpr ⟨row, hrow, (congrArg BeginArgs.idempotencyKey hargs).trans hstill.key⟩

/-- The driver of the order has changed when the report is sent again. -/
def again : List ReportAction :=
  .report 1 exampleReport :: .editOrder 7 ⟨some "driver-2", some "V-001", some "R-1", none, none⟩ ::
    List.replicate 9 (.advance 1 ⟨Submissions.fine "TASK-3", 2, "ANOM-2"⟩)

def isAnswered : ReportState → Bool
  | .returned r _ => r = exampleReport
  | _ => false

/-- The queue is back when the report is sent again. -/
theorem named_report_replays_again : ∃ s₁ s named, exec (step id digest) delivering (reporting .refused) =
    some s₁ ∧ (s₁.calls 0).named = some (exampleReport, named) ∧ exec (step id digest) s₁ again = some s ∧
    (s.calls 1).named = some (exampleReport, named) := by
  have hx : (exec (step id digest) delivering (reporting .refused)).map (fun s₁ =>
      ((s₁.calls 0).named.any fun e => e.1 = exampleReport) &&
      decide (Meets (step id digest) (Undisturbed id 1 exampleReport) s₁ again) &&
      (exec (step id digest) s₁ again).any fun s => isAnswered (s.calls 1)) = some true := by
    decide +kernel
  obtain ⟨s₁, hs₁, hx⟩ := Option.map_eq_some_iff.mp hx
  obtain ⟨hx, hagain⟩ := Bool.and_eq_true_iff.mp hx
  obtain ⟨hfirst, hok⟩ := Bool.and_eq_true_iff.mp hx
  obtain ⟨⟨r, named⟩, hnamed, hr⟩ := (Option.any_eq_true _ _).mp hfirst
  obtain rfl : r = exampleReport := of_decide_eq_true hr
  obtain ⟨s, hs, hagain⟩ := (Option.any_eq_true _ _).mp hagain
  obtain ⟨result, hj⟩ : ∃ result, s.calls 1 = .returned exampleReport result := by
    unfold isAnswered at hagain
    split at hagain
    · rename_i r result hj
      exact ⟨result, (of_decide_eq_true hagain : r = exampleReport) ▸ hj⟩
    · cases hagain
  obtain ⟨-, hsame, -⟩ := named_report_replays digest_injective delivering_initial (by decide) hs₁ hnamed
    (of_decide_eq_true hok) hs
  exact ⟨s₁, s, named, hs₁, hnamed, hs, (hsame result hj).1⟩

/-- **Whatever is named for a key is the same**, in every run: two calls that were answered, or raised that
the queue is unavailable, under one key were made with the same report by the same principal, and name the
same anomaly and task. -/
theorem named_reports_agree {run : List ReportAction} {i : ℕ} {r' : Report} {named named' : Named}
    (hinj : Injective sha256) (h₀ : s₀.Initial sha256) (hapart : ∀ a ∈ run, Apart a)
    (hrun : exec (step upper sha256) s₀ run = some s) (hi : (s.calls i).named = some (r, named))
    (hj : (s.calls j).named = some (r', named'))
    (hkey : (r'.normalized upper).idempotencyKey = (r.normalized upper).idempotencyKey) :
    r'.normalized upper = r.normalized upper ∧ r'.principalSubjectId = r.principalSubjectId ∧
      named' = named := by
  have hs : s.Sound upper sha256 := sound_of_run hinj h₀ hapart hrun
  obtain ⟨report, a, h, rfl⟩ := hs.answered hi
  obtain ⟨report', a', h', rfl⟩ := hs.answered hj
  obtain ⟨rfl, rfl⟩ := ReportState.answered_same h h' hkey
  exact ⟨h'.stores.command.symm.trans h.stores.command, h'.stores.reporter.symm.trans h.stores.reporter, rfl⟩

theorem named_reports_agree_again : ∃ s named,
    exec (step id digest) delivering (reporting .refused ++ again) = some s ∧
    (s.calls 0).named = some (exampleReport, named) ∧ (s.calls 1).named = some (exampleReport, named) := by
  have hx : (exec (step id digest) delivering (reporting .refused ++ again)).map (fun s =>
      ((s.calls 0).named.any fun e => e.1 = exampleReport) && (s.calls 1).named.any fun e =>
      e.1 = exampleReport) =
        some true := by
    decide +kernel
  obtain ⟨s, hs, hx⟩ := Option.map_eq_some_iff.mp hx
  obtain ⟨hfirst, hagain⟩ := Bool.and_eq_true_iff.mp hx
  obtain ⟨⟨r, named⟩, hnamed, hr⟩ := (Option.any_eq_true _ _).mp hfirst
  obtain ⟨⟨r', named'⟩, hnamed', hr'⟩ := (Option.any_eq_true _ _).mp hagain
  obtain rfl : r = exampleReport := of_decide_eq_true hr
  obtain rfl : r' = exampleReport := of_decide_eq_true hr'
  obtain ⟨-, -, rfl⟩ :=
    named_reports_agree digest_injective delivering_initial (by decide) hs hnamed hnamed' rfl
  exact ⟨s, named', hs, hnamed, hnamed'⟩

end Reports

end CountyFlow.AnomalyReports
