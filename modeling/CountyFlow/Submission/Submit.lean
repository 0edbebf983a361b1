import CountyFlow.Lib.Runs
import CountyFlow.Submission.Ledger

/-!
# Submissions

`DispatchTaskApiService.submit` and `_publish_existing`, as calls whose database and queue steps
interleave.  A call looks its key up, draws an id and begins the task under it, appends the message to
the stream and answers; a call that finds the task answers from the row, or appends the message again
when the row says `SUBMISSION_FAILED`.

The `IdempotencyConflictError` of `begin` is another class than the one of the API: `submit` catches
neither, and its caller catches the latter only.
-/

namespace CountyFlow.Submission

open CountyFlow.Lib CountyFlow.Runtime CountyFlow.Worker

/-! ### Requests, messages and answers -/

/-- The report a request carries to the workers. -/
structure Payload where
  driverId : String
  vehicleId : String
  routeId : String
  anomalyType : String
  anomalyDescription : String
  vehicleStatus : String
  incidentNodeId : Option String
  affectedEdgeId : Option String
  deriving DecidableEq, Repr

/-- `CreateDispatchTaskRequest`, with the assignee that the route resolves. -/
structure SubmitRequest where
  orderId : ℤ
  anomalyId : Option ℤ
  idempotencyKey : String
  assigneeEmployeeId : Option String
  assigneeSubjectId : String
  payload : Payload
  deriving DecidableEq, Repr

/-- `DispatchTaskMessage`, without the time and the correlation. -/
structure Message where
  schemaVersion : String
  taskId : String
  orderId : ℤ
  anomalyId : Option ℤ
  idempotencyKey : String
  payload : Payload
  deriving DecidableEq, Repr

/-- The answer of `_accepted`, whose `accepted` is `True`. -/
structure Answer where
  taskId : String
  orderId : ℤ
  status : TaskStatus
  duplicate : Bool
  deriving DecidableEq, Repr

def TaskRow.accepted (row : TaskRow) (duplicate : Bool) : Answer :=
  ⟨row.taskId, row.orderId, row.status, duplicate⟩

inductive SubmitError where
  | idempotencyConflict
  | submissionQueue
  | assigneeNotFound
  | taskNotFound
  | begin (error : BeginError)
  | other
  deriving DecidableEq, Repr

namespace SubmitRequest

/-- The arguments `begin` is called with. -/
def args (r : SubmitRequest) (taskId : String) : BeginArgs where
  taskId := taskId
  orderId := r.orderId
  idempotencyKey := r.idempotencyKey
  anomalyId := r.anomalyId
  assigneeSubjectId := some r.assigneeSubjectId

def message (r : SubmitRequest) (taskId : String) : Message :=
  ⟨"1", taskId, r.orderId, r.anomalyId, r.idempotencyKey, r.payload⟩

def messageOf (r : SubmitRequest) (row : TaskRow) : Message :=
  ⟨"1", row.taskId, row.orderId, r.anomalyId, row.idempotencyKey, r.payload⟩

/-- The row is of another submission with the same key. -/
def conflicts (r : SubmitRequest) (row : TaskRow) : Bool :=
  row.orderId ≠ r.orderId ∨ row.assigneeSubjectId ≠ some r.assigneeSubjectId

end SubmitRequest

/-! ### A call -/

/-- What the calls share: the tables, the stream of tasks, and the active employees. -/
structure World where
  ledger : Ledger
  stream : List Message
  active : String → Bool

/-- What becomes of a message: it is appended; it is appended and the connection fails before the
answer; the connection fails; or something else is raised. -/
inductive QueueOutcome where
  | appended
  | lost
  | refused
  | broken
  deriving DecidableEq, Repr

/-- What the world contributes to a step: the id that is drawn, the fate of a statement of `begin`,
the queue, the time, and whether the step raises. -/
structure SubmitOutcome where
  taskId : String
  begin : BeginOutcome
  queue : QueueOutcome
  now : ℕ
  fails : Bool
  deriving DecidableEq, Repr

inductive SubmitState where
  | idle
  | checking (r : SubmitRequest)
  | looking (r : SubmitRequest)
  | beginning (r : SubmitRequest) (call : BeginState)
  | publishing (r : SubmitRequest) (taskId : String)
  | marking (r : SubmitRequest) (taskId : String)
  | republishing (r : SubmitRequest) (row : TaskRow)
  | resetting (r : SubmitRequest) (taskId : String)
  | announcing (r : SubmitRequest) (taskId : String) (duplicate : Bool)
  | answering (r : SubmitRequest) (taskId : String) (duplicate : Bool)
  | accepted (r : SubmitRequest) (answer : Answer)
  | raised (r : SubmitRequest) (error : SubmitError)

namespace SubmitState

/-- After `_by_key`. -/
def afterLook (r : SubmitRequest) (taskId : String) (found : Option TaskRow) : SubmitState :=
  match found with
  | some row =>
    if r.conflicts row then .raised r .idempotencyConflict
    else if row.status = .submissionFailed then .republishing r row
    else .accepted r (row.accepted true)
  | none => .beginning r (.byTask (r.args taskId) false)

/-- After `begin`. -/
def afterBegin (r : SubmitRequest) : BeginState → SubmitState
  | .returned a decision =>
    if decision.shouldExecute then .publishing r a.taskId
    else .answering r decision.taskId true
  | .raised _ error => .raised r (.begin error)
  | _ => .raised r .other

/-- One step of a call; `none` when it is over. -/
def step (o : SubmitOutcome) (w : World) : SubmitState → Option (SubmitState × World)
  | .idle | .accepted _ _ | .raised _ _ => none
  | .checking r =>
    match r.assigneeEmployeeId with
    | none => some (.looking r, w)
    | some _ =>
      if o.fails then some (.raised r .other, w)
      else if w.active r.assigneeSubjectId then some (.looking r, w)
      else some (.raised r .assigneeNotFound, w)
  | .looking r =>
    if o.fails then some (.raised r .other, w)
    else some (afterLook r o.taskId (w.ledger.byKey r.idempotencyKey), w)
  | .beginning r call =>
    match call.step o.begin w.ledger with
    | some (call', ledger) => some (.beginning r call', { w with ledger := ledger })
    | none => some (afterBegin r call, w)
  | .publishing r taskId =>
    match o.queue with
    | .appended => some (.announcing r taskId false,
        { w with stream := w.stream ++ [r.message taskId] })
    | .lost => some (.marking r taskId, { w with stream := w.stream ++ [r.message taskId] })
    | .refused => some (.marking r taskId, w)
    | .broken => some (.raised r .other, w)
  | .marking r taskId =>
    if o.fails then some (.raised r .other, w)
    else match w.ledger.setStatus taskId .submissionFailed false true o.now with
      | none => some (.raised r .other, w)
      | some ledger => some (.raised r .submissionQueue, { w with ledger := ledger })
  | .republishing r row =>
    match o.queue with
    | .appended => some (.resetting r row.taskId,
        { w with stream := w.stream ++ [r.messageOf row] })
    | .lost => some (.raised r .submissionQueue,
        { w with stream := w.stream ++ [r.messageOf row] })
    | .refused => some (.raised r .submissionQueue, w)
    | .broken => some (.raised r .other, w)
  | .resetting r taskId =>
    if o.fails then some (.raised r .other, w)
    else match w.ledger.tasks.find taskId with
      | none => some (.raised r .taskNotFound, w)
      | some row => some (.announcing r taskId true,
          { w with ledger := w.ledger.update taskId .pending row.startedAt none })
  | .announcing r taskId duplicate => some (.answering r taskId duplicate, w)
  | .answering r taskId duplicate =>
    if o.fails then some (.raised r .other, w)
    else match w.ledger.tasks.find taskId with
      | none => some (.raised r .taskNotFound, w)
      | some row => some (.accepted r (row.accepted duplicate), w)

def request : SubmitState → Option SubmitRequest
  | .idle => none
  | .checking r | .looking r | .beginning r _ | .publishing r _ | .marking r _ | .republishing r _
  | .resetting r _ | .announcing r _ _ | .answering r _ _ | .accepted r _ | .raised r _ => some r

def running : SubmitState → Bool
  | .idle | .accepted _ _ | .raised _ _ => false
  | _ => true

end SubmitState

/-! ### The system -/

structure Submissions where
  world : World
  calls : ℕ → SubmitState

inductive SubmitAction where
  | submit (p : ℕ) (r : SubmitRequest)
  | advance (p : ℕ) (o : SubmitOutcome)
  | interrupt (p : ℕ)
  | work (taskId : String) (status : TaskStatus) (started completed : Bool) (now : ℕ)
  | steer (row : RuntimeThread)
  deriving DecidableEq, Repr

/-- A message of the task has been appended. -/
def World.queued (w : World) (taskId : String) : Bool := w.stream.any fun m => m.taskId = taskId

namespace Submissions

/-- The state after an action, `none` when it is not enabled. -/
def step (s : Submissions) : SubmitAction → Option Submissions
  | .submit p r =>
    match s.calls p with
    | .idle => some { s with calls := Function.update s.calls p (.checking r) }
    | _ => none
  | .advance p o =>
    (SubmitState.step o s.world (s.calls p)).map fun (st, world) =>
      { world := world, calls := Function.update s.calls p st }
  | .interrupt p =>
    match (s.calls p).running, (s.calls p).request with
    | true, some r => some { s with calls := Function.update s.calls p (.raised r .other) }
    | _, _ => none
  | .work taskId status started completed now =>
    if s.world.queued taskId ∧ status ≠ .submissionFailed then
      (s.world.ledger.setStatus taskId status started completed now).map fun ledger =>
        { s with world := { s.world with ledger := ledger } }
    else none
  | .steer row => (s.world.ledger.steer row).map fun ledger =>
    { s with world := { s.world with ledger := ledger } }

/-- The calls from `n` on are not made. -/
def Few (n : ℕ) (s : Submissions) : Prop := ∀ q, n ≤ q → s.calls q = .idle

/-- The action is not of a call from `n` on. -/
def within (n : ℕ) : SubmitAction → Bool
  | .submit p _ | .advance p _ | .interrupt p => p < n
  | .work _ _ _ _ _ | .steer _ => true

theorem Few.update {n p : ℕ} {s : Submissions} {w : World} {st : SubmitState} (hs : s.Few n)
    (hp : p < n) : ({ world := w, calls := Function.update s.calls p st } : Submissions).Few n := by
  intro q hq
  show Function.update s.calls p st q = .idle
  rw [Function.update_of_ne (by omega)]
  exact hs q hq

theorem step_few {n : ℕ} {s s' : Submissions} {a : SubmitAction} (hs : s.Few n) (ha : within n a = true)
    (h : step s a = some s') : s'.Few n := by
  cases a with
  | submit p r =>
    simp only [step] at h
    split at h
    · cases h
      exact hs.update (of_decide_eq_true ha)
    · cases h
  | advance p o =>
    obtain ⟨⟨st, w⟩, -, rfl⟩ := Option.map_eq_some_iff.mp h
    exact hs.update (of_decide_eq_true ha)
  | interrupt p =>
    simp only [step] at h
    split at h
    · cases h
      exact hs.update (of_decide_eq_true ha)
    · cases h
  | work t status started completed now =>
    simp only [step] at h
    split at h
    · obtain ⟨l, -, rfl⟩ := Option.map_eq_some_iff.mp h
      exact hs
    · cases h
  | steer row =>
    obtain ⟨l, -, rfl⟩ := Option.map_eq_some_iff.mp h
    exact hs

def empty : Submissions := ⟨⟨.empty, [], fun _ => true⟩, fun _ => .idle⟩

def exampleRequest : SubmitRequest where
  orderId := 7
  anomalyId := none
  idempotencyKey := "key"
  assigneeEmployeeId := none
  assigneeSubjectId := "driver"
  payload := ⟨"D1", "V1", "R1", "ROAD_BLOCKED", "rockfall", "STOPPED", none, none⟩

/-- A step that goes well. -/
def fine (taskId : String) : SubmitOutcome := ⟨taskId, ⟨.checked, true⟩, .appended, 0, false⟩

end Submissions

/-! ### Rows after a write -/

variable {a : BeginArgs} {l l' : Ledger} {t : String}

namespace Ledger

theorem mem_update {taskId : String} {status : TaskStatus} {started completed : Option ℕ}
    {row : TaskRow} : row ∈ (l.update taskId status started completed).tasks.rows ↔
      ∃ old ∈ l.tasks.rows, row = if old.taskId = taskId then
        { old with status := status, startedAt := started, completedAt := completed } else old := by
  show row ∈ l.tasks.rows.map _ ↔ _
  rw [List.mem_map]
  constructor
  · rintro ⟨old, hold, rfl⟩
    exact ⟨old, hold, rfl⟩
  · rintro ⟨old, hold, rfl⟩
    exact ⟨old, hold, rfl⟩

theorem find_eq_none : l.tasks.find t = none ↔ ∀ pair ∈ l.pairs, pair.1 ≠ t := by
  constructor
  · intro h pair hpair heq
    obtain ⟨row, hrow, rfl⟩ := List.mem_map.mp hpair
    have hfind := Table.find_of_mem hrow
    have heq' : row.taskId = t := heq
    rw [heq', h] at hfind
    cases hfind
  · intro h
    cases hf : l.tasks.find t with
    | none => rfl
    | some row =>
      exact absurd (Table.find_key hf)
        (h (row.taskId, row.idempotencyKey) (List.mem_map_of_mem (Table.find_mem hf)))

theorem find_none_of_pairs (h : l'.pairs = l.pairs)
    (hnone : l.tasks.find t = none) : l'.tasks.find t = none := by
  rw [find_eq_none] at hnone ⊢
  rw [h]
  exact hnone

theorem Gains.find {threadId : String} (h : Gains l l' a threadId) (hne : t ≠ a.taskId)
    (hnone : l.tasks.find t = none) : l'.tasks.find t = none := by
  rw [find_eq_none] at hnone ⊢
  intro pair hpair
  rw [h.pairs] at hpair
  rcases List.mem_append.mp hpair with hold | hnew
  · exact hnone pair hold
  · rw [List.mem_singleton.mp hnew]
    exact hne.symm

end Ledger

/-! ### An id of one's own -/

namespace BeginState

/-- Nobody else has a task under the id of the call, and what the call has read agrees with that. -/
def Untaken (l : Ledger) : BeginState → Prop
  | .byTask a _ | .adding a _ | .threading a _ | .committing a _ => l.tasks.find a.taskId = none
  | .byKey a _ seen found =>
    found = none ∧ seen.tasks.find a.taskId = none ∧ l.tasks.find a.taskId = none
  | .returned a decision => decision = a.new ∧ ∃ row, l.tasks.find a.taskId = some row
  | _ => True

theorem untaken_afterQueries {seen : Ledger} {again : Bool} (hseen : seen.tasks.find a.taskId = none)
    (hl : l.tasks.find a.taskId = none) :
    (afterQueries a again none (seen.byKey a.idempotencyKey)).Untaken l := by
  unfold afterQueries
  cases hkey : seen.byKey a.idempotencyKey with
  | none =>
    have hnone : existing a none none = .ok none := rfl
    rw [hnone]
    cases again with
    | true => trivial
    | false =>
      unfold threadIdForPersistedTask
      by_cases hid : a.taskId = ""
      · rw [if_pos hid]
        trivial
      · rw [if_neg hid]
        exact hl
  | some row =>
    have hne : row.taskId ≠ a.taskId := by
      intro heq
      have hfind := Table.find_of_mem (Ledger.byKey_eq_some.mp hkey).1
      rw [heq, hseen] at hfind
      cases hfind
    have hconflict : existing a none (some row) = .error .idempotencyConflict := by
      unfold existing
      rw [if_neg (by simp), if_pos (by simpa using hne)]
    rw [hconflict]
    trivial

theorem untaken_flush {fate : Fate} {free : Bool} {next : BeginState} (hl : l.tasks.find a.taskId = none)
    (hnext : next.Untaken l) : (flush a fate free next).Untaken l := by
  unfold flush
  split
  · split
    · exact hnext
    · exact hl
  · exact hl
  · trivial

/-- Nobody else gets a task under the id of the call. -/
theorem step_untaken {o : BeginOutcome} {st st' : BeginState} (h : step o l st = some (st', l'))
    (hst : st.Untaken l) : st'.Untaken l' := by
  cases st with
  | idle => cases h
  | returned a d => cases h
  | raised a e => cases h
  | byTask a again =>
    have hl : l.tasks.find a.taskId = none := hst
    simp only [step] at h
    split at h
    · cases h
      trivial
    · cases h
      exact ⟨hl, hl, hl⟩
  | byKey a again seen found =>
    obtain ⟨rfl, hseen, hl⟩ := hst
    simp only [step] at h
    split at h
    · cases h
      trivial
    · cases h
      cases o.repeatable with
      | true => exact untaken_afterQueries hseen hl
      | false => exact untaken_afterQueries hl hl
  | adding a threadId =>
    cases h
    exact untaken_flush hst hst
  | threading a threadId =>
    cases h
    exact untaken_flush hst hst
  | committing a threadId =>
    simp only [step] at h
    split at h
    · rename_i l₁ _ hcommit
      cases h
      refine ⟨rfl, a.task, Table.find_of_mem (r := a.task) ?_⟩
      rw [(Ledger.commit_gains hcommit).tasks]
      exact List.mem_append_right _ (List.mem_singleton.mpr rfl)
    · cases h
      exact hst
    · cases h
      exact hst
    · cases h
      trivial

end BeginState

end CountyFlow.Submission
