import CountyFlow.Events.Cursor
import CountyFlow.Streams.Message

/-!
# Batches of the dispatch stream

`RedisStreamQueue.read_group` and `claim_pending` of `app/streams/redis_queue.py`, with what
`DispatchWorker` makes of their exceptions.
-/

namespace CountyFlow.Streams

open CountyFlow.Core CountyFlow.Lib
open CountyFlow.Events (StreamId idText)

/-- The fields of a stream entry, each a document or `none` for what is not JSON; an entry that has been
deleted has no fields. -/
abbrev Fields := Option (List (String × Option Value))

/-- An entry as Redis returns it. -/
abbrev Entry := StreamId × Fields

structure StreamMessage where
  messageId : String
  task : DispatchTaskMessage
  deliveryCount : Option ℕ
  metadata : List (String × String)
  deriving DecidableEq, Repr

def taskOf (fields : Fields) : Except QueueMessageError DispatchTaskMessage :=
  match fields with
  | none => .error ⟨"Redis stream fields are invalid."⟩
  | some fields =>
    match fields.lookup "data" with
    | none => .error ⟨"Redis stream message data is required."⟩
    | some data => DispatchTaskMessage.fromJson data

/-- `DispatchTaskMessage.from_json` accepts the data of the entry. -/
def accepted (entry : Entry) : Bool :=
  match taskOf entry.2 with
  | .ok _ => true
  | .error _ => false

theorem accepted_iff {entry : Entry} : accepted entry = true ↔ ∃ task, taskOf entry.2 = .ok task := by
  unfold accepted
  cases taskOf entry.2 <;> simp

def messageOf (stream : String) (entry : Entry) : Except QueueMessageError StreamMessage := do
  let task ← taskOf entry.2
  return ⟨idText entry.1, task, none, [("stream", stream)]⟩

variable {stream : String} {message : StreamMessage}

theorem messageOf_eq_ok {entry : Entry} :
    messageOf stream entry = .ok message ↔
      ∃ task, taskOf entry.2 = .ok task ∧ message = ⟨idText entry.1, task, none, [("stream", stream)]⟩ := by
  unfold messageOf
  rw [bind_eq_ok]
  constructor
  · rintro ⟨task, htask, h⟩
    exact ⟨task, htask, (Except.ok.inj h).symm⟩
  · rintro ⟨task, htask, rfl⟩
    exact ⟨task, htask, rfl⟩

/-- `_messages`. -/
def messagesOf (stream : String) (entries : List Entry) : Except QueueMessageError (List StreamMessage) :=
  if stream = "" then .error ⟨"Redis stream name is invalid."⟩ else entries.mapM (messageOf stream)

def Readable (stream : String) (entries : List Entry) : Prop :=
  stream ≠ "" ∧ ∀ entry ∈ entries, accepted entry = true

instance (stream : String) (entries : List Entry) : Decidable (Readable stream entries) :=
  inferInstanceAs (Decidable (_ ∧ _))

variable {entries : List Entry}

theorem messagesOf_eq_ok_iff :
    (∃ messages, messagesOf stream entries = .ok messages) ↔ Readable stream entries := by
  unfold messagesOf Readable
  by_cases hstream : stream = ""
  · simp [hstream]
  · rw [if_neg hstream, exists_mapM_eq_ok]
    constructor
    · intro h
      refine ⟨hstream, fun entry hentry => ?_⟩
      obtain ⟨message, hmessage⟩ := h entry hentry
      obtain ⟨task, htask, -⟩ := messageOf_eq_ok.mp hmessage
      exact accepted_iff.mpr ⟨task, htask⟩
    · rintro ⟨-, h⟩ entry hentry
      obtain ⟨task, htask⟩ := accepted_iff.mp (h entry hentry)
      exact ⟨_, messageOf_eq_ok.mpr ⟨task, htask, rfl⟩⟩

theorem mem_messagesOf {messages : List StreamMessage} (h : messagesOf stream entries = .ok messages) :
    message ∈ messages ↔ ∃ entry ∈ entries, ∃ task, taskOf entry.2 = .ok task ∧
      message = ⟨idText entry.1, task, none, [("stream", stream)]⟩ := by
  have hreadable := messagesOf_eq_ok_iff.mp ⟨messages, h⟩
  rw [messagesOf, if_neg hreadable.1] at h
  simp only [mem_of_mapM h, messageOf_eq_ok]

/-- `read_group`, of what `XREADGROUP` returns. -/
def readGroup (streams : List (String × List Entry)) : Except QueueMessageError (List StreamMessage) := do
  let batches ← streams.mapM fun batch => messagesOf batch.1 batch.2
  return batches.flatten

/-- A message with what `XPENDING` said of it before and after the claim. -/
def StreamMessage.claimed (message : StreamMessage) (idle counts : List (String × ℕ)) : StreamMessage :=
  { message with
    deliveryCount := counts.lookup message.messageId
    metadata := message.metadata ++
      [("pending_idle_ms_at_claim", toString ((idle.lookup message.messageId).getD 0))] }

/-- `claim_pending`, of what `XAUTOCLAIM` returns. -/
def claimPending (stream : String) (entries : List Entry) (idle counts : List (String × ℕ)) :
    Except QueueMessageError (List StreamMessage) := do
  let messages ← messagesOf stream entries
  return messages.map fun message => message.claimed idle counts

/-- What `run_once` and `recover_once` go on with: nothing after a `QueueMessageError`. -/
def received : Except QueueMessageError (List StreamMessage) → List StreamMessage
  | .ok messages => messages
  | .error _ => []

theorem received_eq_nil {result : Except QueueMessageError (List StreamMessage)}
    (h : ¬ ∃ messages, result = .ok messages) : received result = [] := by
  cases result with
  | ok messages => exact absurd ⟨messages, rfl⟩ h
  | error e => rfl

theorem readGroup_eq_ok_iff {streams : List (String × List Entry)} :
    (∃ messages, readGroup streams = .ok messages) ↔ ∀ batch ∈ streams, Readable batch.1 batch.2 := by
  simp only [← messagesOf_eq_ok_iff]
  rw [← exists_mapM_eq_ok]
  unfold readGroup
  simp only [bind_eq_ok]
  constructor
  · rintro ⟨messages, batches, h, -⟩
    exact ⟨batches, h⟩
  · rintro ⟨batches, h⟩
    exact ⟨batches.flatten, batches, h, rfl⟩

theorem read_complete_iff (streams : List (String × List Entry)) :
    (∀ batch ∈ streams, ∀ entry ∈ batch.2, ∀ task, taskOf entry.2 = .ok task →
      ⟨idText entry.1, task, none, [("stream", batch.1)]⟩ ∈ received (readGroup streams)) ↔
    (∀ batch ∈ streams, Readable batch.1 batch.2) ∨
      ∀ batch ∈ streams, ∀ entry ∈ batch.2, accepted entry = false := by
  constructor
  · intro hall
    by_cases hreadable : ∀ batch ∈ streams, Readable batch.1 batch.2
    · exact .inl hreadable
    · refine .inr fun batch hbatch entry hentry => Bool.eq_false_iff.mpr fun haccepted => ?_
      obtain ⟨task, htask⟩ := accepted_iff.mp haccepted
      have hmem := hall batch hbatch entry hentry task htask
      rw [received_eq_nil (mt readGroup_eq_ok_iff.mp hreadable)] at hmem
      exact List.not_mem_nil hmem
  · intro h batch hbatch entry hentry task htask
    have haccepted : accepted entry = true := accepted_iff.mpr ⟨task, htask⟩
    rcases h with hreadable | hnone
    · obtain ⟨messages, hmessages⟩ := readGroup_eq_ok_iff.mpr hreadable
      rw [hmessages]
      obtain ⟨batches, hbatches, hflatten⟩ := bind_eq_ok.mp hmessages
      cases hflatten
      obtain ⟨own, hown⟩ := messagesOf_eq_ok_iff.mpr (hreadable batch hbatch)
      refine List.mem_flatten.mpr ⟨own, (mem_of_mapM hbatches).mpr ⟨batch, hbatch, hown⟩, ?_⟩
      exact (mem_messagesOf hown).mpr ⟨entry, hentry, task, htask, rfl⟩
    · rw [hnone batch hbatch entry hentry] at haccepted
      cases haccepted

theorem mem_claimPending {idle counts : List (String × ℕ)}
    :
    message ∈ received (claimPending stream entries idle counts) ↔ Readable stream entries ∧
      ∃ entry ∈ entries, ∃ task, taskOf entry.2 = .ok task ∧
        message = StreamMessage.claimed ⟨idText entry.1, task, none, [("stream", stream)]⟩ idle counts := by
  by_cases hreadable : Readable stream entries
  · obtain ⟨messages, hmessages⟩ := messagesOf_eq_ok_iff.mpr hreadable
    have hclaim : claimPending stream entries idle counts =
        .ok (messages.map fun message => message.claimed idle counts) := by
      rw [claimPending, hmessages]
      rfl
    rw [hclaim, received, List.mem_map]
    constructor
    · rintro ⟨plain, hplain, rfl⟩
      obtain ⟨entry, hentry, task, htask, rfl⟩ := (mem_messagesOf hmessages).mp hplain
      exact ⟨hreadable, entry, hentry, task, htask, rfl⟩
    · rintro ⟨-, entry, hentry, task, htask, rfl⟩
      exact ⟨_, (mem_messagesOf hmessages).mpr ⟨entry, hentry, task, htask, rfl⟩, rfl⟩
  · have herror : received (claimPending stream entries idle counts) = [] := by
      apply received_eq_nil
      rintro ⟨messages, h⟩
      obtain ⟨plain, hplain, -⟩ := bind_eq_ok.mp h
      exact hreadable (messagesOf_eq_ok_iff.mp ⟨plain, hplain⟩)
    simp [herror, hreadable]

theorem claim_complete_iff (stream : String) (entries : List Entry) (idle counts : List (String × ℕ)) :
    (∀ entry ∈ entries, ∀ task, taskOf entry.2 = .ok task →
      StreamMessage.claimed ⟨idText entry.1, task, none, [("stream", stream)]⟩ idle counts ∈
        received (claimPending stream entries idle counts)) ↔
    Readable stream entries ∨ ∀ entry ∈ entries, accepted entry = false := by
  simp only [mem_claimPending]
  constructor
  · intro hall
    by_cases hreadable : Readable stream entries
    · exact .inl hreadable
    · refine .inr fun entry hentry => Bool.eq_false_iff.mpr fun haccepted => ?_
      obtain ⟨task, htask⟩ := accepted_iff.mp haccepted
      exact hreadable (hall entry hentry task htask).1
  · intro h entry hentry task htask
    have haccepted : accepted entry = true := accepted_iff.mpr ⟨task, htask⟩
    rcases h with hreadable | hnone
    · exact ⟨hreadable, entry, hentry, task, htask, rfl⟩
    · rw [hnone entry hentry] at haccepted
      cases haccepted

end CountyFlow.Streams
