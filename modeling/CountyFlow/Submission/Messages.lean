import CountyFlow.Streams.DeadLetter
import CountyFlow.Submission.Submit

/-!
# The messages that are built

What `submit` and `_publish_existing` put into the stream: the message of a request that pydantic has let
through, stamped with the time and the correlation id of the request.
-/

namespace CountyFlow.Submission

open CountyFlow.Lib CountyFlow.Lib.Json CountyFlow.Runtime CountyFlow.Worker
open CountyFlow.Security (Datetime isoformat)
open CountyFlow.Operations (isGenerated)
open CountyFlow.Streams.Codec (Fault StreamMessage moveToDlq moveToDlq_eq_ok moveToDlq_survives Told)

/-! ### Valid requests -/

/-- `Field(min_length=1, max_length=maximum)`. -/
def isSized (maximum : ℕ) (text : String) : Bool := 1 ≤ text.length ∧ text.length ≤ maximum

/-- What pydantic has checked of a `CreateDispatchTaskRequest`. -/
structure SubmitRequest.Valid (r : SubmitRequest) : Prop where
  driver : isSized 64 r.payload.driverId = true
  vehicle : isSized 64 r.payload.vehicleId = true
  route : isSized 64 r.payload.routeId = true
  anomaly : isSized 64 r.payload.anomalyType = true
  description : isSized 2000 r.payload.anomalyDescription = true
  key : isSized 128 r.idempotencyKey = true
  status : r.payload.vehicleStatus ∈ ["NORMAL", "BROKEN", "UNAVAILABLE", "MAINTENANCE"]
  assignee : ∀ id ∈ r.assigneeEmployeeId, isSized 32 id = true
  incident : ∀ id ∈ r.payload.incidentNodeId, isSized 64 id = true
  edge : ∀ id ∈ r.payload.affectedEdgeId, isSized 64 id = true

/-- A valid request as `submit` receives it: its ids come from a JSON body or from INTEGER columns, and
neither holds an integer that is too long for `json.loads`. -/
structure SubmitRequest.Received (r : SubmitRequest) : Prop extends r.Valid where
  orderId : Short r.orderId
  anomalyId : ∀ z ∈ r.anomalyId, Short z

theorem ne_empty_of_isSized {maximum : ℕ} {text : String} (h : isSized maximum text = true) : text ≠ "" := by
  rintro rfl
  simp [isSized] at h

theorem optional_ne_empty {maximum : ℕ} {text : Option String} (h : ∀ id ∈ text, isSized maximum id = true) :
    some text ≠ some (some "") := by
  intro heq
  exact ne_empty_of_isSized (h "" (Option.some.inj heq)) rfl

/-! ### Correlation ids -/

/-- `uuid4()`, by its 32 hexadecimal digits. -/
structure Uuid where
  hex : String
  length_hex : hex.length = 32

/-- `_CORRELATION_PATTERN.fullmatch`. -/
def isCorrelation (value : String) : Bool :=
  1 ≤ value.length ∧ value.length ≤ 64 ∧
    (value.toList.all fun c => c.isAlphanum ∨ c = '.' ∨ c = '_' ∨ c = '-') = true

def normalizeCorrelationId (value : Option String) (uuid : Uuid) : String :=
  match value with
  | some value => if isCorrelation value then value else uuid.hex
  | none => uuid.hex

/-- `current_correlation_id`: nothing is bound, or what `bind_observability_context` was given. -/
def currentCorrelationId (bound : Option (Option String × Uuid)) : Option String :=
  bound.map fun given => normalizeCorrelationId given.1 given.2

theorem currentCorrelationId_ne (bound : Option (Option String × Uuid)) : currentCorrelationId bound ≠
    some "" := by
  have hhex : ∀ uuid : Uuid, uuid.hex ≠ "" := by
    intro uuid h
    have hlength := uuid.length_hex
    rw [h] at hlength
    cases hlength
  rcases bound with _ | ⟨value, uuid⟩
  · nofun
  · intro h
    have hnormal : normalizeCorrelationId value uuid = "" := Option.some.inj h
    unfold normalizeCorrelationId at hnormal
    split at hnormal
    · split at hnormal
      · rename_i hcorrelation
        rw [hnormal] at hcorrelation
        cases hcorrelation
      · exact hhex uuid hnormal
    · exact hhex uuid hnormal

/-! ### Messages -/

/-- The payload of a message; the keys that may be missing are there. -/
def Payload.document (payload : Payload) : Streams.DispatchTaskPayload where
  driverId := payload.driverId
  vehicleId := payload.vehicleId
  routeId := payload.routeId
  anomalyType := payload.anomalyType
  anomalyDescription := payload.anomalyDescription
  vehicleStatus := payload.vehicleStatus
  incidentNodeId := some payload.incidentNodeId
  affectedEdgeId := some payload.affectedEdgeId

/-- The message with the time and the correlation id. -/
def Message.stamped (m : Message) (now : Datetime) (bound : Option (Option String × Uuid)) :
    Streams.Codec.DispatchTaskMessage :=
  .ofDocument
    { taskId := m.taskId
      orderId := m.orderId
      anomalyId := m.anomalyId
      idempotencyKey := m.idempotencyKey
      createdAt := isoformat now
      payload := m.payload.document
      correlationId := currentCorrelationId bound }

/-- A message of a request that was received, for a task with an id and a key. -/
structure Message.Built (m : Message) : Prop where
  taskId : m.taskId ≠ ""
  key : m.idempotencyKey ≠ ""
  request : ∃ r : SubmitRequest, r.Received ∧ m.payload = r.payload ∧ m.anomalyId = r.anomalyId ∧
    m.orderId = r.orderId

variable {m : Message}

theorem Message.Built.survives (h : m.Built) (now : Datetime)
    (bound : Option (Option String × Uuid)) : (m.stamped now bound).Survives := by
  obtain ⟨r, hr, hpayload, hanomaly, horder⟩ := h.request
  have hfilled : Streams.DispatchTaskMessage.Filled m.payload.document := by
    rw [hpayload]
    refine ⟨?_, optional_ne_empty hr.incident, optional_ne_empty hr.edge⟩
    have hstatus : r.payload.vehicleStatus ≠ "" := by
      intro h
      have hmem := hr.status
      rw [h] at hmem
      revert hmem
      decide
    simp only [List.forall_mem_cons, Payload.document]
    exact ⟨ne_empty_of_isSized hr.driver, ne_empty_of_isSized hr.vehicle, ne_empty_of_isSized hr.route,
      ne_empty_of_isSized hr.anomaly, ne_empty_of_isSized hr.description, hstatus, nofun⟩
  rw [Streams.Codec.DispatchTaskMessage.survives_iff, Message.stamped,
    Streams.Codec.DispatchTaskMessage.wellFormed_ofDocument]
  have hshort : Short m.orderId ∧ ∀ z ∈ m.anomalyId, Short z := by
    rw [horder, hanomaly]
    exact ⟨hr.orderId, hr.anomalyId⟩
  refine ⟨⟨?_, Streams.isUtc_isoformat now, currentCorrelationId_ne bound, hfilled⟩, hshort⟩
  simp only [List.forall_mem_cons]
  exact ⟨h.taskId, h.key, nofun⟩

/-! ### The calls of a run -/

variable {st : SubmitState}

namespace SubmitState

/-- The message that a call is about to append. -/
def built : SubmitState → Option Message
  | .publishing r taskId => some (r.message taskId)
  | .republishing r row => some (r.messageOf row)
  | _ => none

/-- The call goes on with a request that was received and the id of a task. -/
def Sound : SubmitState → Prop
  | .idle => True
  | .beginning r call => r.Received ∧ ∀ a, call.args = some a → a.taskId ≠ ""
  | .publishing r taskId => r.Received ∧ taskId ≠ ""
  | .republishing r row => r.Received ∧ row.taskId ≠ "" ∧ row.idempotencyKey = r.idempotencyKey ∧
      row.orderId = r.orderId
  | .checking r | .looking r | .marking r _ | .resetting r _ | .announcing r _ _ | .answering r _ _
  | .accepted r _ | .raised r _ => r.Received

theorem Sound.received {r : SubmitRequest} (h : st.Sound) (hr : st.request = some r) : r.Received := by
  cases st with
  | idle => cases hr
  | beginning r' call =>
    cases hr
    exact h.1
  | publishing r' taskId =>
    cases hr
    exact h.1
  | republishing r' row =>
    cases hr
    exact h.1
  | _ =>
    cases hr
    exact h

theorem Sound.built (h : st.Sound) (hm : st.built = some m) : m.Built := by
  cases st with
  | publishing r taskId =>
    cases hm
    exact ⟨h.2, ne_empty_of_isSized h.1.key, r, h.1, rfl, rfl, rfl⟩
  | republishing r row =>
    cases hm
    obtain ⟨hr, htask, hkey, horder⟩ := h
    refine ⟨htask, ?_, r, hr, rfl, rfl, horder⟩
    show row.idempotencyKey ≠ ""
    rw [hkey]
    exact ne_empty_of_isSized hr.key
  | _ => cases hm

end SubmitState

/-- Every task has an id. -/
def Ledger.Named (l : Ledger) : Prop := ∀ pair ∈ l.pairs, pair.1 ≠ ""

theorem Ledger.Named.row {l : Ledger} (h : l.Named) {row : TaskRow} (hrow : row ∈ l.tasks.rows) :
    row.taskId ≠ "" :=
  h (row.taskId, row.idempotencyKey) (List.mem_map_of_mem hrow)

namespace SubmitState

/-- A call goes on with its request, and no task is without an id. -/
theorem step_sound {o : SubmitOutcome} {w w' : World} {st' : SubmitState} (hst : st.Sound)
    (hw : w.ledger.Named) (ho : ∀ r, st = .looking r → o.taskId ≠ "") (h : st.step o w = some (st', w')) :
    st'.Sound ∧ w'.ledger.Named := by
  cases st with
  | idle => cases h
  | accepted r answer => cases h
  | raised r error => cases h
  | checking r =>
    have hr : r.Received := hst
    simp only [step] at h
    split at h
    · cases h
      exact ⟨hr, hw⟩
    · split at h
      · cases h
        exact ⟨hr, hw⟩
      split at h
      · cases h
        exact ⟨hr, hw⟩
      · cases h
        exact ⟨hr, hw⟩
  | looking r =>
    have hr : r.Received := hst
    simp only [step] at h
    split at h
    · cases h
      exact ⟨hr, hw⟩
    · cases h
      refine ⟨?_, hw⟩
      unfold afterLook
      split
      · rename_i row hrow
        obtain ⟨hmem, hkey⟩ := Ledger.byKey_eq_some.mp hrow
        split
        · exact hr
        · rename_i hconflicts
          have horder : row.orderId = r.orderId := by
            by_contra hne
            exact hconflicts (decide_eq_true (.inl hne))
          split
          · exact ⟨hr, hw.row hmem, hkey, horder⟩
          · exact hr
      · refine ⟨hr, fun a ha => ?_⟩
        cases ha
        exact ho r rfl
  | beginning r call =>
    obtain ⟨hr, hcall⟩ := hst
    simp only [step] at h
    split at h
    · rename_i call' ledger hstep
      cases h
      obtain ⟨hargs, hmoves⟩ := BeginState.step_moves hstep
      refine ⟨⟨hr, fun a ha => hcall a (hargs ▸ ha)⟩, ?_⟩
      rcases hmoves with ⟨rfl, -⟩ | ⟨a, threadId, rfl, -, hcommit⟩
      · exact hw
      · intro pair hpair
        have hpair' : pair ∈ ledger.pairs := hpair
        rw [(Ledger.commit_gains hcommit).pairs] at hpair'
        rcases List.mem_append.mp hpair' with hold | hnew
        · exact hw pair hold
        · rw [List.mem_singleton.mp hnew]
          exact hcall a rfl
    · cases h
      refine ⟨?_, hw⟩
      unfold afterBegin
      split
      · rename_i a decision _
        split
        · exact ⟨hr, hcall a rfl⟩
        · exact hr
      · exact hr
      · exact hr
  | publishing r taskId =>
    have hr : r.Received := hst.1
    simp only [step] at h
    split at h <;> (cases h; exact ⟨hr, hw⟩)
  | marking r taskId =>
    have hr : r.Received := hst
    simp only [step] at h
    split at h
    · cases h
      exact ⟨hr, hw⟩
    · split at h
      · cases h
        exact ⟨hr, hw⟩
      · rename_i ledger hset
        cases h
        obtain ⟨row, -, rfl⟩ := Option.map_eq_some_iff.mp hset
        refine ⟨hr, fun pair hpair => hw pair ?_⟩
        rw [← Ledger.update_pairs]
        exact hpair
  | republishing r row =>
    have hr : r.Received := hst.1
    simp only [step] at h
    split at h <;> (cases h; exact ⟨hr, hw⟩)
  | resetting r taskId =>
    have hr : r.Received := hst
    simp only [step] at h
    split at h
    · cases h
      exact ⟨hr, hw⟩
    · split at h
      · cases h
        exact ⟨hr, hw⟩
      · cases h
        refine ⟨hr, fun pair hpair => hw pair ?_⟩
        rw [← Ledger.update_pairs]
        exact hpair
  | announcing r taskId duplicate =>
    cases h
    exact ⟨hst, hw⟩
  | answering r taskId duplicate =>
    have hr : r.Received := hst
    simp only [step] at h
    split at h
    · cases h
      exact ⟨hr, hw⟩
    · split at h <;> (cases h; exact ⟨hr, hw⟩)

end SubmitState

variable {s : Submissions} {p : ℕ}

namespace Submissions

/-- Where runs begin: no call, and tasks with ids. -/
structure Opening (s : Submissions) : Prop where
  idle : ∀ p, s.calls p = .idle
  named : s.world.ledger.Named

/-- Requests are valid ones that were received, and the ids that are drawn are ids that `submit` generates. -/
def Proper (s : Submissions) : SubmitAction → Prop
  | .submit _ r => r.Received
  | .advance p o => ∀ r, s.calls p = .looking r → isGenerated o.taskId = true
  | _ => True

/-- Every call is sound, and every task has an id. -/
structure Sound (s : Submissions) : Prop where
  calls : ∀ p, (s.calls p).Sound
  named : s.world.ledger.Named

theorem Opening.sound (h : s.Opening) : s.Sound := by
  refine ⟨fun p => ?_, h.named⟩
  rw [h.idle p]
  trivial

theorem Sound.update {w : World} (hs : s.Sound) (hst : st.Sound)
    (hw : w.ledger.Named) : ({ world := w, calls := Function.update s.calls p st } : Submissions).Sound := by
  refine ⟨fun q => ?_, hw⟩
  show (Function.update s.calls p st q).Sound
  by_cases hq : q = p
  · rw [hq, Function.update_self]
    exact hst
  · rw [Function.update_of_ne hq]
    exact hs.calls q

theorem ne_empty_of_isGenerated {taskId : String} (h : isGenerated taskId = true) : taskId ≠ "" := by
  rintro rfl
  revert h
  decide

theorem step_sound {s' : Submissions} {a : SubmitAction} (hs : s.Sound) (ha : s.Proper a)
    (h : step s a = some s') : s'.Sound := by
  cases a with
  | submit p r =>
    simp only [step] at h
    split at h
    · cases h
      exact hs.update ha hs.named
    · cases h
  | advance p o =>
    obtain ⟨⟨st, w⟩, hstep, rfl⟩ := Option.map_eq_some_iff.mp h
    obtain ⟨hst, hw⟩ := SubmitState.step_sound (hs.calls p) hs.named
      (fun r hr => ne_empty_of_isGenerated (ha r hr)) hstep
    exact hs.update hst hw
  | interrupt p =>
    simp only [step] at h
    split at h
    · rename_i r hrunning hrequest
      cases h
      exact hs.update ((hs.calls p).received hrequest) hs.named
    · cases h
  | work t status started completed now =>
    simp only [step] at h
    split at h
    · obtain ⟨l, hset, rfl⟩ := Option.map_eq_some_iff.mp h
      obtain ⟨row, -, rfl⟩ := Option.map_eq_some_iff.mp hset
      refine ⟨hs.calls, fun pair hpair => hs.named pair ?_⟩
      rw [← Ledger.update_pairs]
      exact hpair
    · cases h
  | steer row =>
    obtain ⟨l, hsteer, rfl⟩ := Option.map_eq_some_iff.mp h
    refine ⟨hs.calls, fun pair hpair => hs.named pair ?_⟩
    rw [Ledger.pairs, ← Ledger.steer_tasks hsteer]
    exact hpair

theorem built_survives {s₀ : Submissions} {run : List SubmitAction} (h₀ : s₀.Opening)
    (hproper : Meets step Proper s₀ run) (hrun : exec step s₀ run = some s) (hm : (s.calls p).built = some m)
    (now : Datetime) (bound : Option (Option String × Uuid)) : (m.stamped now bound).Survives := by
  have hs : s.Sound :=
    exec_invariant (fun (s₁ : Submissions) a s₂ hs ha hstep => step_sound hs ha hstep) hproper hrun h₀.sound
  exact ((hs.calls p).built hm).survives now bound

end Submissions

/-- **Messages survive encoding.**  In every run of submissions with valid requests, a message that a call
builds, with any time and correlation id, is read back from its text; so is every message that is read from a
text or from bytes; and of such a message, `move_to_dlq` builds a dead letter that is read back and carries
the ids, the key and the payload of the message, whatever stream, id, reason and code it is told, and for
every count from 1 on that Redis can give. -/
theorem messages_survive :
    (∀ (s₀ s : Submissions) (run : List SubmitAction),
    s₀.Opening → Meets Submissions.step Submissions.Proper s₀ run →
      exec Submissions.step s₀ run = some s → ∀ p m, (s.calls p).built = some m → ∀ now bound,
        (m.stamped now bound).Survives) ∧
    (∀ data m, Streams.Codec.DispatchTaskMessage.fromJson data = .ok m → m.Survives) ∧
    ∀ data m, Streams.Codec.DispatchTaskMessage.fromJson data = .ok m →
      ∀ streamName messageId failureReason errorCode deliveryCount now,
        Told streamName ⟨messageId, m⟩ failureReason errorCode deliveryCount → deliveryCount < 2 ^ 63 →
          ∃ letter, moveToDlq streamName ⟨messageId, m⟩ failureReason errorCode deliveryCount now =
          .ok letter ∧
            letter.Survives ∧ letter.taskId = m.taskId ∧ letter.orderId = m.orderId ∧
            letter.idempotencyKey = m.idempotencyKey ∧ letter.payload = m.payload := by
  refine ⟨fun s₀ s run h₀ hproper hrun p m hm now bound => Submissions.built_survives h₀ hproper hrun hm now
    bound, fun data m h => Streams.Codec.DispatchTaskMessage.survives_iff.mpr
      (Streams.Codec.DispatchTaskMessage.wellFormed_of_fromJson h), ?_⟩
  intro data m h streamName messageId failureReason errorCode deliveryCount now htold hcount
  have hm := Streams.Codec.DispatchTaskMessage.wellFormed_of_fromJson h
  have hletter := @moveToDlq_eq_ok _ _ _ ⟨messageId, m⟩ _ now hm.payload htold
  have hshort : Short deliveryCount := short_of_lt htold.positive hcount
  exact ⟨_, hletter, moveToDlq_survives hm htold hshort hletter, rfl, rfl, rfl, rfl⟩

/-- A message as an outside publisher may write it: with blanks, with an escaped letter, without a status
and without the last key. -/
def sampleText : Text :=
  ["\x7b \"schema_version\": \"1\", ", "\"task_id\": \"TASK-1\", ", "\"order_id\": 7, ",
    "\"idempotency_key\": \"k\\u00e9y\", ", "\"created_at\": \"2026-08-21T00:00:00Z\", ", "\"payload\": ",
    "\x7b\"driver_id\": \"D1\", ", "\"vehicle_id\": \"V1\", ", "\"route_id\": \"R1\", ",
    "\"anomaly_type\": \"SLIDE\", ", "\"anomaly_description\": \"mud\", ",
    "\"incident_node_id\": null\x7d \x7d"].flatMap codes

def sampleMessage : Streams.Codec.DispatchTaskMessage where
  taskId := codes "TASK-1"
  orderId := 7
  anomalyId := none
  idempotencyKey := codes "kéy"
  createdAt := codes "2026-08-21T00:00:00Z"
  payload := ⟨codes "D1", codes "V1", codes "R1", codes "SLIDE", codes "mud", codes "NORMAL", some none,
    none⟩
  correlationId := none

theorem sampleMessage_read : Streams.Codec.DispatchTaskMessage.fromJson (.text sampleText) =
    .ok sampleMessage := by
  decide +kernel

def breakdownReport : SubmitRequest where
  orderId := 7
  anomalyId := none
  idempotencyKey := "key"
  assigneeEmployeeId := none
  assigneeSubjectId := "driver"
  payload := ⟨"D1", "V1", "R1", "VEHICLE_BREAKDOWN", "engine failure", "BROKEN", some "N04", none⟩

theorem breakdownReport_received : breakdownReport.Received where
  driver := (by decide : isSized 64 "D1" = true)
  vehicle := (by decide : isSized 64 "V1" = true)
  route := (by decide : isSized 64 "R1" = true)
  anomaly := (by decide : isSized 64 "VEHICLE_BREAKDOWN" = true)
  description := (by decide : isSized 2000 "engine failure" = true)
  key := (by decide : isSized 128 "key" = true)
  status := (by decide : "BROKEN" ∈ ["NORMAL", "BROKEN", "UNAVAILABLE", "MAINTENANCE"])
  assignee := nofun
  incident := by
    rintro id ⟨⟩
    decide
  edge := nofun
  orderId := short_small (by decide)
  anomalyId := nofun

/-- The report up to the point where its message is appended. -/
def reported : List SubmitAction :=
  [.submit 0 breakdownReport] ++
    List.replicate 8 (.advance 0 (Submissions.fine "TASK-0123456789abcdef0123456789abcde"))

theorem reported_built : ∃ s, exec Submissions.step Submissions.empty reported = some s ∧
    (s.calls 0).built = some (breakdownReport.message "TASK-0123456789abcdef0123456789abcde") :=
  ⟨_, rfl, rfl⟩

theorem reported_proper : Meets Submissions.step Submissions.Proper Submissions.empty reported := by
  have hproper : ∀ a ∈ reported, ∀ s : Submissions, s.Proper a := by
    intro a ha s
    rcases List.mem_append.mp ha with hsubmit | hadvance
    · rw [List.mem_singleton.mp hsubmit]
      exact breakdownReport_received
    · rw [List.eq_of_mem_replicate hadvance]
      intro r _
      show isGenerated "TASK-0123456789abcdef0123456789abcde" = true
      decide +kernel
  exact (meets_of_mem hproper Submissions.empty).mono fun s a h => h s

theorem empty_opening : Submissions.empty.Opening := ⟨fun _ => rfl, nofun⟩

def sampleNow : Datetime := ⟨63870292800123456, by decide⟩

/-- A report is written down, and the message and its dead letter are read back. -/
theorem messages_survive_sample :
    (∃ s m, exec Submissions.step Submissions.empty reported = some s ∧ (s.calls 0).built = some m ∧
      (m.stamped sampleNow none).Survives) ∧
    sampleMessage.Survives ∧
    ∃ letter, moveToDlq (codes "countyflow:dispatch:tasks") ⟨codes "1-0", sampleMessage⟩
        (codes "Maximum delivery attempts exceeded.") (codes "MAX_DELIVERY_ATTEMPTS_EXCEEDED") 3 sampleNow =
          .ok letter ∧
      letter.Survives ∧ letter.payload = sampleMessage.payload := by
  obtain ⟨hbuilt, hread, hletters⟩ := messages_survive
  refine ⟨?_, hread _ _ sampleMessage_read, ?_⟩
  · obtain ⟨s, hs, hm⟩ := reported_built
    exact ⟨s, _, hs, hm, hbuilt _ s _ empty_opening reported_proper hs 0 _ hm sampleNow none⟩
  · obtain ⟨letter, hletter, hsurvives, -, -, -, hpayload⟩ := hletters _ _ sampleMessage_read
      (codes "countyflow:dispatch:tasks") (codes "1-0") (codes "Maximum delivery attempts exceeded.")
      (codes "MAX_DELIVERY_ATTEMPTS_EXCEEDED") 3 sampleNow
        ⟨by decide, by decide, by decide, by decide, by decide⟩
      (by decide)
    exact ⟨letter, hletter, hsurvives, hpayload⟩

end CountyFlow.Submission
