import CountyFlow.Streams.Codec
import CountyFlow.Streams.Timestamps

/-!
# Dead letters

`DeadLetterMessage` of `app/streams/models.py`, and the one that `move_to_dlq` builds of a message that
could not be handled.
-/

namespace CountyFlow.Streams.Codec

open CountyFlow.Lib CountyFlow.Lib.Json CountyFlow.Security

/-- `DeadLetterMessage`; its schema version is `"1"`. -/
structure DeadLetterMessage where
  originalMessageId : Text
  taskId : Text
  orderId : ℤ
  idempotencyKey : Text
  originalStream : Text
  failureReason : Text
  errorCode : Text
  deliveryCount : ℤ
  failedAt : Text
  payload : DispatchTaskPayload
  deriving DecidableEq, Repr

namespace DeadLetterMessage

def positiveInteger (value : Json) (field : String) : Except Fault ℤ :=
  integer "Dead-letter" value field >>= fun z =>
    if z < 1 then .error (.queueMessage ("Dead-letter message field " ++ field ++ " must be positive."))
      else .ok z

/-- `from_json`, after `json.loads`. -/
def ofRaw : Json → Except Fault DeadLetterMessage
  | .dict raw =>
    if isVersionOne (get raw "schema_version") then do
      let originalMessageId ← requiredText "Dead-letter" (get raw "original_message_id") "original_message_id"
      let taskId ← requiredText "Dead-letter" (get raw "task_id") "task_id"
      let orderId ← integer "Dead-letter" (get raw "order_id") "order_id"
      let idempotencyKey ← requiredText "Dead-letter" (get raw "idempotency_key") "idempotency_key"
      let originalStream ← requiredText "Dead-letter" (get raw "original_stream") "original_stream"
      let failureReason ← requiredText "Dead-letter" (get raw "failure_reason") "failure_reason"
      let errorCode ← requiredText "Dead-letter" (get raw "error_code") "error_code"
      let deliveryCount ← positiveInteger (get raw "delivery_count") "delivery_count"
      let failedAt ← utcTimestamp "Dead-letter" (get raw "failed_at") "failed_at"
      let payload ← payloadOf (get raw "payload")
      .ok ⟨originalMessageId, taskId, orderId, idempotencyKey, originalStream, failureReason, errorCode,
        deliveryCount, failedAt, payload⟩
    else .error (.queueMessage "Dead-letter message schema version is unsupported.")
  | _ => .error (.queueMessage "Dead-letter message schema version is unsupported.")

def fromJson (data : Data) : Except Fault DeadLetterMessage := loadsData "Dead-letter" data >>= ofRaw

/-- The dead letter as it is written, its keys in order. -/
def entries (letter : DeadLetterMessage) : List (Text × Json) :=
  [(codes "delivery_count", .int letter.deliveryCount),
    (codes "error_code", .str letter.errorCode),
    (codes "failed_at", .str letter.failedAt),
    (codes "failure_reason", .str letter.failureReason),
    (codes "idempotency_key", .str letter.idempotencyKey),
    (codes "order_id", .int letter.orderId),
    (codes "original_message_id", .str letter.originalMessageId),
    (codes "original_stream", .str letter.originalStream),
    (codes "payload", .dict letter.payload.entries),
    (codes "schema_version", .str (codes "1")),
    (codes "task_id", .str letter.taskId)]

def toJson (letter : DeadLetterMessage) : Except Fault Text := dumpsData letter.entries

/-- `from_stream_message`; `now` is `datetime.now(UTC)`. -/
def fromStreamMessage (originalMessageId : Text) (message : DispatchTaskMessage)
    (originalStream failureReason errorCode : Text) (deliveryCount : ℤ) (now : Datetime) :
    Except Fault DeadLetterMessage := do
  let originalMessageId ← requiredText "Dead-letter" (.str originalMessageId) "original_message_id"
  let originalStream ← requiredText "Dead-letter" (.str originalStream) "original_stream"
  let failureReason ← requiredText "Dead-letter" (.str failureReason) "failure_reason"
  let errorCode ← requiredText "Dead-letter" (.str errorCode) "error_code"
  let deliveryCount ← positiveInteger (.int deliveryCount) "delivery_count"
  let payload ← payloadOf (.dict message.payload.entries)
  .ok ⟨originalMessageId, message.taskId, message.orderId, message.idempotencyKey, originalStream,
    failureReason, errorCode, deliveryCount, codes (isoformat now), payload⟩

/-- A dead letter that `from_json` lets through. -/
structure WellFormed (letter : DeadLetterMessage) : Prop where
  required : ∀ text ∈ [letter.originalMessageId, letter.taskId, letter.idempotencyKey, letter.originalStream,
    letter.failureReason, letter.errorCode], text ≠ []
  order : Short letter.orderId
  positive : 1 ≤ letter.deliveryCount
  deliveries : Short letter.deliveryCount
  failed : isUtc letter.failedAt = true
  payload : letter.payload.Filled

def Survives (letter : DeadLetterMessage) : Prop :=
  ∃ text, letter.toJson = .ok text ∧ fromJson (.text text) = .ok letter

theorem positiveInteger_eq_ok {value : Json} {field : String} {z : ℤ} :
    positiveInteger value field = .ok z ↔ value = .int z ∧ 1 ≤ z := by
  unfold positiveInteger
  rw [bind_eq_ok]
  constructor
  · rintro ⟨z', hz, h⟩
    split at h
    · cases h
    · rename_i hpos
      cases h
      exact ⟨integer_eq_ok.mp hz, not_lt.mp hpos⟩
  · rintro ⟨h, hpos⟩
    exact ⟨z, integer_eq_ok.mpr h, if_neg (not_lt.mpr hpos)⟩

variable {letter : DeadLetterMessage}

theorem wellFormed_of_fromJson {data : Data} (h : fromJson data = .ok letter) : letter.WellFormed := by
  obtain ⟨raw, hraw, h⟩ := bind_eq_ok.mp h
  obtain ⟨text, htext⟩ := loadsData_eq_ok hraw
  have hshort := loads_shortIn htext
  cases raw with
  | dict raw =>
    simp only [ofRaw] at h
    split at h
    · obtain ⟨originalMessageId, hid, h⟩ := bind_eq_ok.mp h
      obtain ⟨taskId, htask, h⟩ := bind_eq_ok.mp h
      obtain ⟨orderId, horder, h⟩ := bind_eq_ok.mp h
      obtain ⟨key, hkey, h⟩ := bind_eq_ok.mp h
      obtain ⟨stream, hstream, h⟩ := bind_eq_ok.mp h
      obtain ⟨reason, hreason, h⟩ := bind_eq_ok.mp h
      obtain ⟨code, hcode, h⟩ := bind_eq_ok.mp h
      obtain ⟨count, hcount, h⟩ := bind_eq_ok.mp h
      obtain ⟨failedAt, hfailed, h⟩ := bind_eq_ok.mp h
      obtain ⟨payload, hpayload, h⟩ := bind_eq_ok.mp h
      cases h
      obtain ⟨hdeliveries, hpositive⟩ := positiveInteger_eq_ok.mp hcount
      refine ⟨?_, DispatchTaskMessage.short_get hshort (integer_eq_ok.mp horder), hpositive,
        DispatchTaskMessage.short_get hshort hdeliveries, (utcTimestamp_eq_ok.mp hfailed).2,
        filled_of_payloadOf hpayload⟩
      simp only [List.forall_mem_cons]
      exact ⟨(requiredText_eq_ok.mp hid).2, (requiredText_eq_ok.mp htask).2, (requiredText_eq_ok.mp hkey).2,
        (requiredText_eq_ok.mp hstream).2, (requiredText_eq_ok.mp hreason).2, (requiredText_eq_ok.mp hcode).2,
        nofun⟩
    · cases h
  | _ => cases h

theorem ofRaw_entries (h : letter.WellFormed) : ofRaw (.dict letter.entries) = .ok letter := by
  have hrequired := h.required
  simp only [List.forall_mem_cons] at hrequired
  obtain ⟨hid, htask, hkey, hstream, hreason, hcode, -⟩ := hrequired
  have hversion : isVersionOne (get letter.entries "schema_version") = true := by
    simp [get, entries, find_cons, isVersionOne]
  simp only [ofRaw, hversion, if_true]
  refine bind_eq_ok.mpr ⟨_, requiredText_eq_ok.mpr ⟨by simp [get, entries, find_cons], hid⟩, ?_⟩
  refine bind_eq_ok.mpr ⟨_, requiredText_eq_ok.mpr ⟨by simp [get, entries, find_cons], htask⟩, ?_⟩
  refine bind_eq_ok.mpr ⟨_, integer_eq_ok.mpr (by simp [get, entries, find_cons]; rfl), ?_⟩
  refine bind_eq_ok.mpr ⟨_, requiredText_eq_ok.mpr ⟨by simp [get, entries, find_cons], hkey⟩, ?_⟩
  refine bind_eq_ok.mpr ⟨_, requiredText_eq_ok.mpr ⟨by simp [get, entries, find_cons], hstream⟩, ?_⟩
  refine bind_eq_ok.mpr ⟨_, requiredText_eq_ok.mpr ⟨by simp [get, entries, find_cons], hreason⟩, ?_⟩
  refine bind_eq_ok.mpr ⟨_, requiredText_eq_ok.mpr ⟨by simp [get, entries, find_cons], hcode⟩, ?_⟩
  refine bind_eq_ok.mpr ⟨_, positiveInteger_eq_ok.mpr ⟨by simp [get, entries, find_cons], h.positive⟩, ?_⟩
  refine bind_eq_ok.mpr ⟨_, utcTimestamp_eq_ok.mpr ⟨by simp [get, entries, find_cons], h.failed⟩, ?_⟩
  have hpayload : get letter.entries "payload" = .dict letter.payload.entries := by
    simp [get, entries, find_cons]
  rw [hpayload]
  exact bind_eq_ok.mpr ⟨_, payloadOf_entries h.payload, rfl⟩

theorem exact_entries (letter : DeadLetterMessage) : Exact (.dict letter.entries) := by
  refine ⟨?_, ?_⟩
  · have hkeys : letter.entries.map Prod.fst = ["delivery_count", "error_code", "failed_at", "failure_reason",
        "idempotency_key", "order_id", "original_message_id", "original_stream", "payload", "schema_version",
        "task_id"].map codes := rfl
    rw [hkeys]
    exact List.Nodup.map codes_injective (by decide)
  · exact ⟨trivial, trivial, trivial, trivial, trivial, trivial, trivial, trivial,
      letter.payload.exact_entries, trivial, trivial, trivial⟩

theorem written_entries : Written (.dict letter.entries) ↔
    Short letter.orderId ∧ Short letter.deliveryCount := by
  rw [written_dict, entries]
  simp only [List.forall_mem_cons, written_int]
  constructor
  · rintro ⟨hdeliveries, -, -, -, -, horder, -⟩
    exact ⟨horder, hdeliveries⟩
  · rintro ⟨horder, hdeliveries⟩
    exact ⟨hdeliveries, written_str _, written_str _, written_str _, written_str _, horder, written_str _,
      written_str _, letter.payload.written_entries, written_str _, written_str _, nofun⟩

theorem survives_iff : letter.Survives ↔ letter.WellFormed := by
  constructor
  · rintro ⟨text, -, h⟩
    exact wellFormed_of_fromJson h
  · intro h
    obtain ⟨text, htext⟩ := written_entries.mpr ⟨h.order, h.deliveries⟩
    refine ⟨text, dumpsData_eq_ok.mpr htext, ?_⟩
    exact bind_eq_ok.mpr ⟨_, loadsData_text (loads_dumps htext letter.exact_entries), ofRaw_entries h⟩

end DeadLetterMessage

/-! ### Moving to the dead letters -/

structure StreamMessage where
  messageId : Text
  task : DispatchTaskMessage
  deriving DecidableEq, Repr

/-- The dead letter that `move_to_dlq` of a queue with the stream `streamName` publishes. -/
def moveToDlq (streamName : Text) (message : StreamMessage) (failureReason errorCode : Text)
    (deliveryCount : ℤ) (now : Datetime) : Except Fault DeadLetterMessage :=
  DeadLetterMessage.fromStreamMessage message.messageId message.task streamName failureReason errorCode
    deliveryCount now

/-- The texts of a dead letter that do not come from its task are there, and the count is positive. -/
structure Told (streamName : Text) (message : StreamMessage) (failureReason errorCode : Text)
    (deliveryCount : ℤ) : Prop where
  messageId : message.messageId ≠ []
  stream : streamName ≠ []
  reason : failureReason ≠ []
  code : errorCode ≠ []
  positive : 1 ≤ deliveryCount

section Moving

variable {streamName failureReason errorCode : Text} {message : StreamMessage} {deliveryCount : ℤ}
  {now : Datetime} {letter : DeadLetterMessage}

theorem moveToDlq_eq_ok (h : message.task.payload.Filled)
    (htold : Told streamName message failureReason errorCode deliveryCount) :
    moveToDlq streamName message failureReason errorCode deliveryCount now =
      .ok ⟨message.messageId, message.task.taskId, message.task.orderId, message.task.idempotencyKey,
        streamName, failureReason, errorCode, deliveryCount, codes (isoformat now),
        message.task.payload⟩ := by
  refine bind_eq_ok.mpr ⟨_, requiredText_eq_ok.mpr ⟨rfl, htold.messageId⟩, ?_⟩
  refine bind_eq_ok.mpr ⟨_, requiredText_eq_ok.mpr ⟨rfl, htold.stream⟩, ?_⟩
  refine bind_eq_ok.mpr ⟨_, requiredText_eq_ok.mpr ⟨rfl, htold.reason⟩, ?_⟩
  refine bind_eq_ok.mpr ⟨_, requiredText_eq_ok.mpr ⟨rfl, htold.code⟩, ?_⟩
  refine bind_eq_ok.mpr ⟨_, DeadLetterMessage.positiveInteger_eq_ok.mpr ⟨rfl, htold.positive⟩, ?_⟩
  exact bind_eq_ok.mpr ⟨_, payloadOf_entries h, rfl⟩

theorem moveToDlq_survives (h : message.task.WellFormed)
    (htold : Told streamName message failureReason errorCode deliveryCount) (hcount : Short deliveryCount)
    (hmove : moveToDlq streamName message failureReason errorCode deliveryCount now = .ok letter) :
    letter.Survives := by
  obtain rfl := Except.ok.inj ((moveToDlq_eq_ok h.payload htold).symm.trans hmove)
  rw [DeadLetterMessage.survives_iff]
  have hrequired := h.required
  simp only [List.forall_mem_cons] at hrequired
  obtain ⟨htask, hkey, -⟩ := hrequired
  have hfailed : isUtc (codes (isoformat now)) = true := (isUtc_codes _).trans (isUtc_isoformat now)
  refine ⟨?_, h.order, htold.positive, hcount, ?_, h.payload⟩
  · simp only [List.forall_mem_cons]
    exact ⟨htold.messageId, htask, hkey, htold.stream, htold.reason, htold.code, nofun⟩
  · dsimp only
    exact hfailed

end Moving

end CountyFlow.Streams.Codec
