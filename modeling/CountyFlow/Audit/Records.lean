import CountyFlow.Audit.Service
import CountyFlow.Lib.Runs
import CountyFlow.Lib.Table

/-!
# The records of the audit

Any number of calls of `AuditService.audit`, each with its own evidence, on one `audit_records` table.
`_persist_if_possible` looks for a record of its task and its dispatch in one statement and inserts one in
another; nothing keeps a second record out.  Another service may write records of the same task, and a call
can be cut off at any time.
-/

namespace CountyFlow.Audit

open CountyFlow.Core CountyFlow.Lib Function
open CountyFlow.Worker (AuditResult)

/-- The task and the dispatch of a record. -/
abbrev RecordKey := String × ℤ

/-- A row of `audit_records`; `byAudit` tells the rows of this service. -/
structure AuditRecord where
  id : ℕ
  key : RecordKey
  result : AuditResult
  reason : String
  byAudit : Bool
  deriving DecidableEq

/-- What the record of some evidence is for; `_persist_if_possible` writes none without it. -/
def recordKey (evidence : State) : Option RecordKey :=
  match text (evidence.get "task_id"), integer ((dispatch evidence).get "dispatch_id") with
  | some taskId, some dispatchId => some (taskId, dispatchId)
  | _, _ => none

/-- Where a call is: before its `SELECT`, before its `INSERT`, or at its end. -/
inductive CallState where
  | idle
  | looking (evidence : State) (verdict : Verdict) (key : RecordKey)
  | absent (evidence : State) (verdict : Verdict) (key : RecordKey)
  | done (ending : Except AuditError Report)
  | gone

/-- How a call goes on: it returns, it raises, or its process has died. -/
inductive Reply where
  | returned
  | raised
  | died
  deriving DecidableEq

inductive Action where
  /-- `dumps` says whether the text of the evidence can be made. -/
  | start (p : ℕ) (evidence : State) (dumps : Bool)
  /-- The record that is found. -/
  | look (p : ℕ) (found : Option ℕ)
  | insert (p : ℕ) (id : ℕ) (reply : Reply)
  /-- A statement fails, or the call is cut off. -/
  | abort (p : ℕ) (reply : Reply)
  /-- A record of another service. -/
  | foreign (record : AuditRecord)
  | task (taskId : String)

structure System where
  tasks : List String
  records : Table AuditRecord AuditRecord.id
  calls : ℕ → CallState

/-- The end of a call that has been cut off. -/
def CallState.aborted : Reply → CallState
  | .died => .gone
  | .returned | .raised => .done (.error (.persistence "Audit record persistence failed."))

variable {p id : ℕ} {st : CallState} {records : Table AuditRecord AuditRecord.id} {evidence : State}
  {verdict : Verdict} {report : Report} {s' : System} {a : Action} {key : RecordKey}

namespace System

def initial : System := ⟨[], Table.empty, fun _ => .idle⟩

def setCall (s : System) (p : ℕ) (st : CallState) : System :=
  { s with calls := update s.calls p st }

def recordOf (verdict : Verdict) (key : RecordKey) (id : ℕ) : AuditRecord :=
  ⟨id, key, verdict.status, verdict.reason, true⟩

def started (evidence : State) (dumps : Bool) : CallState :=
  match evaluate evidence with
  | .error e => .done (.error e)
  | .ok verdict =>
    if dumps then
      match recordKey evidence with
      | some key => .looking evidence verdict key
      | none => .done (audit evidence (.ok none))
    else .done (.error .typeError)

/-- The state after an action, `none` when it is not enabled. -/
def step (s : System) : Action → Option System
  | .start p evidence dumps =>
    match s.calls p with
    | .idle => some (s.setCall p (started evidence dumps))
    | _ => none
  | .look p found =>
    match s.calls p with
    | .looking evidence verdict key =>
      if key.1 ∉ s.tasks then
        some (s.setCall p (.done (.error (.persistence "Audit task was not found."))))
      else
        match found with
        | some id =>
          match s.records.find id with
          | some record =>
            if record.key = key then some (s.setCall p (.done (audit evidence (.ok (some id)))))
            else none
          | none => none
        | none =>
          if ∃ record ∈ s.records.rows, record.key = key then none
          else some (s.setCall p (.absent evidence verdict key))
    | _ => none
  | .insert p id reply =>
    match s.calls p with
    | .absent evidence verdict key =>
      (s.records.add (recordOf verdict key id)).map fun records =>
        { s with
          records
          calls := update s.calls p
            (if reply = .returned then .done (audit evidence (.ok (some id))) else .aborted reply) }
    | _ => none
  | .abort p reply =>
    match s.calls p with
    | .looking .. | .absent .. => some (s.setCall p (.aborted reply))
    | _ => none
  | .foreign record =>
    if record.byAudit then none else (s.records.add record).map fun records => { s with records }
  | .task taskId => some { s with tasks := taskId :: s.tasks }

/-- **The audit outcome is the one on record**: a call that has returned the id of a record has returned its
result, and the audit has written at most one record for a task and a dispatch. -/
structure Agreed (s : System) : Prop where
  result : ∀ {p report id}, s.calls p = .done (.ok report) → report.auditRecordId = some id →
    ∃ record ∈ s.records.rows, record.id = id ∧ record.result = report.auditStatus
  single : ∀ r ∈ s.records.rows, ∀ r' ∈ s.records.rows, r.byAudit = true → r'.byAudit = true →
    r.key = r'.key → r = r'

/-- **The condition**: a record that is found says what this call has found out, and no other call of the
audit has inserted a record between the `SELECT` and the `INSERT`. -/
def Consistent (s : System) : Action → Prop
  | .look p (some id) =>
    match s.calls p with
    | .looking _ verdict key => key.1 ∈ s.tasks →
        ∀ record ∈ s.records.rows, record.id = id → record.result = verdict.status
    | _ => True
  | .insert p _ _ =>
    match s.calls p with
    | .absent _ _ key => ∀ record ∈ s.records.rows, record.byAudit = true → record.key ≠ key
    | _ => True
  | _ => True

instance (s : System) (a : Action) : Decidable (s.Consistent a) := by
  unfold Consistent
  split
  · split <;> infer_instance
  · split <;> infer_instance
  · infer_instance

/-! ### What a step does -/

/-- A call that is under way has evaluated its evidence. -/
def Evaluated : CallState → Prop
  | .looking evidence verdict _ | .absent evidence verdict _ => evaluate evidence = .ok verdict
  | _ => True

/-- What holds in every state. -/
def Kept (s : System) : Prop := ∀ p, Evaluated (s.calls p)

variable {s : System}

theorem kept_setCall {tasks : List String} (hs : s.Kept) (hst : Evaluated st) :
    Kept ⟨tasks, records, update s.calls p st⟩ := by
  intro q
  show Evaluated (update s.calls p st q)
  by_cases hq : q = p
  · subst hq
    rwa [update_self]
  · rw [update_of_ne hq]
    exact hs q

theorem audit_of_evaluated (h : evaluate evidence = .ok verdict) (recordId : Option ℕ) :
    ∃ report, audit evidence (.ok recordId) = .ok report ∧ report.auditStatus = verdict.status ∧
      report.auditRecordId = recordId := by
  unfold audit
  rw [h]
  exact ⟨_, rfl, rfl, rfl⟩

theorem started_done {dumps : Bool}
    (h : started evidence dumps = .done (.ok report)) : report.auditRecordId = none := by
  unfold started at h
  cases hverdict : evaluate evidence with
  | error e =>
    rw [hverdict] at h
    cases h
  | ok verdict =>
    rw [hverdict] at h
    dsimp only at h
    split at h
    · split at h
      · cases h
      · obtain ⟨report', hreport, -, hid⟩ := audit_of_evaluated hverdict none
        rw [hreport] at h
        cases h
        exact hid
    · cases h

theorem started_evaluated (evidence : State) (dumps : Bool) : Evaluated (started evidence dumps) := by
  unfold started
  cases hverdict : evaluate evidence with
  | error e => trivial
  | ok verdict =>
    dsimp only
    split
    · split
      · exact hverdict
      · trivial
    · trivial

/-- The call has not returned the id of a record. -/
def Unrecorded (st : CallState) : Prop :=
  ∀ report, st = .done (.ok report) → report.auditRecordId = none

theorem unrecorded_aborted (reply : Reply) : Unrecorded (.aborted reply) := by
  intro report h
  cases reply <;> cases h

/-- **Every step**: a call moves without a record, finds one, or inserts one; or the table gets a record of
another service, or the database a task. -/
inductive Moves (s : System) (a : Action) : System → Prop
  | quiet {p : ℕ} {st : CallState} : s.Consistent a → Evaluated st → Unrecorded st →
      Moves s a (s.setCall p st)
  | found {p id : ℕ} {evidence : State} {verdict : Verdict} {key : RecordKey} {record : AuditRecord} :
      s.calls p = .looking evidence verdict key → record ∈ s.records.rows → record.id = id →
      (s.Consistent a ↔ record.result = verdict.status) →
      Moves s a (s.setCall p (.done (audit evidence (.ok (some id)))))
  | inserted {p id : ℕ} {evidence : State} {verdict : Verdict} {key : RecordKey} {st : CallState}
      {records : Table AuditRecord AuditRecord.id} : s.calls p = .absent evidence verdict key →
      s.records.add (recordOf verdict key id) = some records →
      (s.Consistent a ↔ ∀ record ∈ s.records.rows, record.byAudit = true → record.key ≠ key) →
      st = .done (audit evidence (.ok (some id))) ∨ Evaluated st ∧ Unrecorded st →
      Moves s a { s with records, calls := update s.calls p st }
  | foreign {record : AuditRecord} {records : Table AuditRecord AuditRecord.id} : s.Consistent a →
      record.byAudit = false → s.records.add record = some records → Moves s a { s with records }
  | task {tasks : List String} : s.Consistent a → Moves s a { s with tasks }

/-- All that an action of the audit can do. -/
theorem step_moves (hs : s.Kept) (h : step s a = some s') : Moves s a s' := by
  cases a with
  | start p evidence dumps =>
    simp only [step] at h
    split at h
    · cases h
      exact .quiet trivial (started_evaluated evidence dumps) fun report => started_done
    · cases h
  | look p found =>
    simp only [step] at h
    split at h
    · rename_i evidence verdict key hcall
      split at h
      · rename_i htask
        cases h
        refine .quiet ?_ trivial fun report h => by cases h
        cases found with
        | none => trivial
        | some id => simp [Consistent, hcall, htask]
      · rename_i htask
        have htask : key.1 ∈ s.tasks := not_not.mp htask
        split at h
        · rename_i id
          split at h
          · rename_i record hfind
            split at h
            · cases h
              obtain ⟨hmem, hid⟩ := Table.find_eq_some_iff.mp hfind
              refine .found hcall hmem hid ?_
              simp only [Consistent, hcall]
              constructor
              · intro hall
                exact hall htask record hmem hid
              · intro hresult _ record' hmem' hid'
                have hfind' : s.records.find id = some record' :=
                  Table.find_eq_some_iff.mpr ⟨hmem', hid'⟩
                obtain rfl := Option.some.inj (hfind.symm.trans hfind')
                exact hresult
            · cases h
          · cases h
        · split at h
          · cases h
          · cases h
            have hevaluated := hs p
            rw [hcall] at hevaluated
            exact .quiet trivial hevaluated fun report h => by cases h
    · cases h
  | insert p id reply =>
    simp only [step] at h
    split at h
    · rename_i evidence verdict key hcall
      obtain ⟨records, hadd, rfl⟩ := Option.map_eq_some_iff.mp h
      refine .inserted hcall hadd ?_ ?_
      · simp only [Consistent, hcall]
      · split
        · exact .inl rfl
        · refine .inr ⟨?_, unrecorded_aborted reply⟩
          cases reply <;> trivial
    · cases h
  | abort p reply =>
    simp only [step] at h
    have hst : Evaluated (.aborted reply) := by cases reply <;> trivial
    split at h
    · cases h
      exact .quiet trivial hst (unrecorded_aborted reply)
    · cases h
      exact .quiet trivial hst (unrecorded_aborted reply)
    · cases h
  | foreign record =>
    simp only [step] at h
    split at h
    · cases h
    · rename_i hforeign
      obtain ⟨records, hadd, rfl⟩ := Option.map_eq_some_iff.mp h
      exact .foreign trivial (by simpa using hforeign) hadd
  | task taskId =>
    cases h
    exact .task trivial

theorem step_kept (hs : s.Kept) (h : step s a = some s') : s'.Kept := by
  cases step_moves hs h with
  | quiet _ hst _ => exact kept_setCall hs hst
  | found _ _ _ _ => exact kept_setCall hs trivial
  | inserted _ _ _ hst =>
    rcases hst with rfl | ⟨hst, -⟩
    · exact kept_setCall hs trivial
    · exact kept_setCall hs hst
  | foreign _ _ _ => exact hs
  | task _ => exact hs

/-! ### What is on record -/

theorem Agreed.more (h : s.Agreed) (hrecords : ∀ record ∈ s.records.rows, record ∈ records.rows)
    (hcall : s.calls p = .done (.ok report)) (hid : report.auditRecordId = some id) :
    ∃ record ∈ records.rows, record.id = id ∧ record.result = report.auditStatus := by
  obtain ⟨record, hmem, hrecord⟩ := h.result hcall hid
  exact ⟨record, hrecords record hmem, hrecord⟩

theorem calls_update {q : ℕ} {st' : CallState} (h : update s.calls p st q = st') :
    q = p ∧ st = st' ∨ q ≠ p ∧ s.calls q = st' := by
  by_cases hq : q = p
  · subst hq
    rw [update_self] at h
    exact .inl ⟨rfl, h⟩
  · rw [update_of_ne hq] at h
    exact .inr ⟨hq, h⟩

theorem Agreed.setCall (h : s.Agreed) (hst : Unrecorded st) : (s.setCall p st).Agreed := by
  refine ⟨fun {q report id} hcall hid => ?_, h.single⟩
  rcases calls_update hcall with ⟨-, rfl⟩ | ⟨-, hcall⟩
  · rw [hst report rfl] at hid
    cases hid
  · exact h.result hcall hid

theorem agreed_found (hs : s.Kept) (h : s.Agreed) {record : AuditRecord}
    (hcall : s.calls p = .looking evidence verdict key) (hmem : record ∈ s.records.rows)
    (hid : record.id = id) :
    record.result = verdict.status ↔ (s.setCall p (.done (audit evidence (.ok (some id))))).Agreed := by
  have hevaluated : evaluate evidence = .ok verdict := by
    have hkept := hs p
    rwa [hcall] at hkept
  obtain ⟨report, hreport, hstatus, hrecordId⟩ :=
    audit_of_evaluated hevaluated (some id)
  rw [hreport]
  constructor
  · intro hresult
    refine ⟨fun {q report' id'} hcall' hid' => ?_, h.single⟩
    rcases calls_update hcall' with ⟨-, heq⟩ | ⟨-, hcall'⟩
    · cases heq
      obtain rfl := Option.some.inj (hrecordId.symm.trans hid')
      exact ⟨record, hmem, hid, hresult.trans hstatus.symm⟩
    · exact h.result hcall' hid'
  · intro hagreed
    have hdone : (s.setCall p (.done (.ok report))).calls p = .done (.ok report) :=
      update_self ..
    obtain ⟨record', hmem', hid', hresult'⟩ := hagreed.result hdone hrecordId
    have hsame : record' = record :=
      List.inj_on_of_nodup_map s.records.unique hmem' hmem (hid'.trans hid.symm)
    rw [← hsame, hresult', hstatus]

theorem agreed_inserted (hs : s.Kept) (h : s.Agreed) (hcall : s.calls p = .absent evidence verdict key)
    (hadd : s.records.add (recordOf verdict key id) = some records)
    (hst : st = .done (audit evidence (.ok (some id))) ∨ Evaluated st ∧ Unrecorded st) :
    (∀ record ∈ s.records.rows, record.byAudit = true → record.key ≠ key) ↔
      Agreed { s with records, calls := update s.calls p st } := by
  have hevaluated : evaluate evidence = .ok verdict := by
    have hkept := hs p
    rwa [hcall] at hkept
  have hrows := Table.rows_add hadd
  have hnew : recordOf verdict key id ∈ records.rows := by simp [hrows]
  have hold : ∀ record ∈ s.records.rows, record ∈ records.rows := by
    intro record hrecord
    simp [hrows, hrecord]
  have hfresh : ∀ record ∈ s.records.rows, record.id ≠ id := by
    intro record hrecord heq
    have hnone := Table.find_none_of_add hadd
    have hfind := Table.find_of_mem hrecord
    rw [heq] at hfind
    exact absurd (hnone.symm.trans hfind) (by simp)
  constructor
  · intro hnone
    refine ⟨fun {q report id'} hcall' hid' => ?_, fun r hr r' hr' haudit haudit' hkey => ?_⟩
    · rcases calls_update hcall' with ⟨-, heq⟩ | ⟨-, hcall'⟩
      · rcases hst with rfl | ⟨-, hunrecorded⟩
        · obtain ⟨report', hreport', hstatus, hrecordId⟩ :=
            audit_of_evaluated hevaluated (some id)
          rw [hreport'] at heq
          cases heq
          obtain rfl := Option.some.inj (hrecordId.symm.trans hid')
          exact ⟨_, hnew, rfl, hstatus.symm⟩
        · rw [hunrecorded report heq] at hid'
          cases hid'
      · exact h.more hold hcall' hid'
    · change r ∈ records.rows at hr
      change r' ∈ records.rows at hr'
      rw [hrows, List.mem_append, List.mem_singleton] at hr hr'
      rcases hr with hr | rfl
      · rcases hr' with hr' | rfl
        · exact h.single r hr r' hr' haudit haudit' hkey
        · exact absurd hkey (hnone r hr haudit)
      · rcases hr' with hr' | rfl
        · exact absurd hkey.symm (hnone r' hr' haudit')
        · rfl
  · intro hagreed record hrecord haudit hkey
    have hsame := hagreed.single record (hold record hrecord) _ hnew haudit rfl hkey
    exact hfresh record hrecord (congrArg AuditRecord.id hsame)

/-- The calls go on agreeing with the records exactly if the step is consistent. -/
theorem step_agreed (hs : s.Kept) (h : s.Agreed) (hstep : step s a = some s') :
    s.Consistent a ↔ s'.Agreed := by
  cases step_moves hs hstep with
  | quiet hconsistent _ hst => exact iff_of_true hconsistent (h.setCall hst)
  | found hcall hmem hid hconsistent =>
    rw [hconsistent]
    exact agreed_found hs h hcall hmem hid
  | inserted hcall hadd hconsistent hst =>
    rw [hconsistent]
    exact agreed_inserted hs h hcall hadd hst
  | @foreign record records hconsistent hforeign hadd =>
    refine iff_of_true hconsistent ⟨fun hcall hid => h.more ?_ hcall hid, ?_⟩
    · intro record' hrecord'
      simp [Table.rows_add hadd, hrecord']
    · intro r hr r' hr' haudit haudit' hkey
      have hmem {x : AuditRecord} (hx : x ∈ records.rows) (hx' : x.byAudit = true) :
          x ∈ s.records.rows := by
        rw [Table.rows_add hadd, List.mem_append, List.mem_singleton] at hx
        refine hx.resolve_right fun heq => ?_
        rw [heq, hforeign] at hx'
        cases hx'
      exact h.single r (hmem hr haudit) r' (hmem hr' haudit') haudit haudit' hkey
  | task hconsistent => exact iff_of_true hconsistent ⟨h.result, h.single⟩

/-- **The outcome of the audit is the one on record exactly in the runs in which what is found says what the
call has found out, and no insertion is overtaken.** -/
theorem record_iff {s : System} {run : List Action} (hrun : exec step initial run = some s) :
    Meets step Consistent initial run ↔
      ∀ pre m, pre <+: run → exec step initial pre = some m → m.Agreed := by
  apply meets_iff_throughout (I := Kept) (fun _ _ _ hs h => step_kept hs h)
    (fun _ _ _ hs hagreed h => step_agreed hs hagreed h) hrun
  · intro p
    trivial
  · refine ⟨fun hcall => ?_, fun r hr => ?_⟩
    · cases hcall
    · cases hr

/-! ### A changed state, and two workers -/

/-- The evidence of an executed dispatch, with or without the flag of a review. -/
def dispatched (requiresManualReview : Bool) : State :=
  [("task_id", .str "TASK-001"), ("decision", .str "REROUTE"), ("recommended_route", .str "national-102"),
    ("requires_manual_review", .bool requiresManualReview), ("error_code", .none),
    ("dispatch_result", .dict [("dispatch_id", .int 1), ("target_route_id", .str "national-102"),
      ("executed", .bool true)])]

/-- The audit is cut off behind its commit, and made again from the state of that time. -/
def replay (requiresManualReview : Bool) : List Action :=
  [.task "TASK-001", .start 0 (dispatched false) true, .look 0 none, .insert 0 1 .died,
    .start 1 (dispatched requiresManualReview) true, .look 1 (some 1)]

/-- Two workers look before one of them inserts. -/
def overlap : List Action :=
  [.task "TASK-001", .start 0 (dispatched false) true, .start 1 (dispatched false) true, .look 0 none,
    .look 1 none, .insert 0 1 .returned, .insert 1 2 .returned]

/-- The results of the records, and what a call has returned. -/
def outcome (s : System) (p : ℕ) : List (ℕ × AuditResult) × Option (Option ℕ × AuditResult) :=
  (s.records.rows.map fun record => (record.id, record.result),
    match s.calls p with
    | .done (.ok report) => some (report.auditRecordId, report.auditStatus)
    | _ => none)

theorem record_iff_replay : ∃ s, exec step initial (replay false) = some s ∧
    (s.outcome 1).2 = some (some 1, .approved) ∧ s.Agreed := by
  have hfacts : (exec step initial (replay false)).map (fun s => (s.outcome 1).2) =
      some (some (some 1, .approved)) := by
    decide +kernel
  obtain ⟨s, hrun, houtcome⟩ := Option.map_eq_some_iff.mp hfacts
  exact ⟨s, hrun, houtcome, (record_iff hrun).mp (by decide +kernel) _ s (List.prefix_refl _) hrun⟩

theorem Agreed.mem_outcome (h : s.Agreed) {result : AuditResult} {rows : List (ℕ × AuditResult)}
    (houtcome : s.outcome p = (rows, some (some id, result))) : (id, result) ∈ rows := by
  obtain ⟨hrows, hreturned⟩ := Prod.mk.inj houtcome
  split at hreturned
  · rename_i report hcall
    obtain ⟨hid, hresult⟩ := Prod.mk.inj (Option.some.inj hreturned)
    obtain ⟨record, hmem, hrecord, hstatus⟩ := h.result hcall hid
    rw [← hrows, ← hrecord, ← hresult, ← hstatus]
    exact List.mem_map_of_mem hmem
  · cases hreturned

/-- **The replay of a changed state returns another result than its record has**, and two workers that
overlap write two records. -/
theorem record_disagrees :
    (∃ s, exec step initial (replay true) = some s ∧
      s.outcome 1 = ([(1, .approved)], some (some 1, .reviewRequired)) ∧ ¬ s.Agreed) ∧
    ∃ s, exec step initial overlap = some s ∧
      (s.records.rows.map fun record => (record.id, record.key, record.byAudit)) =
        [(1, ("TASK-001", 1), true), (2, ("TASK-001", 1), true)] ∧ ¬ s.Agreed := by
  constructor
  · have hfacts : (exec step initial (replay true)).map (fun s => s.outcome 1) =
        some ([(1, .approved)], some (some 1, .reviewRequired)) := by
      decide +kernel
    obtain ⟨s, hrun, houtcome⟩ := Option.map_eq_some_iff.mp hfacts
    refine ⟨s, hrun, houtcome, fun hagreed => ?_⟩
    have hmem := hagreed.mem_outcome houtcome
    simp at hmem
  · have hfacts : (exec step initial overlap).map (fun s =>
        (s.records.rows.map fun record => (record.id, record.key, record.byAudit),
          decide (∀ r ∈ s.records.rows, ∀ r' ∈ s.records.rows, r.byAudit = true → r'.byAudit = true →
            r.key = r'.key → r = r'))) =
        some ([(1, ("TASK-001", 1), true), (2, ("TASK-001", 1), true)], false) := by
      decide +kernel
    obtain ⟨s, hrun, hoverlap⟩ := Option.map_eq_some_iff.mp hfacts
    obtain ⟨hrows, hsingle⟩ := Prod.mk.inj hoverlap
    exact ⟨s, hrun, hrows, fun hagreed => of_decide_eq_false hsingle hagreed.single⟩

end System

end CountyFlow.Audit
