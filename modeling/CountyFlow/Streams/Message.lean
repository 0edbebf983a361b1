import Mathlib.Algebra.Ring.Nat
import CountyFlow.Core.Value

/-!
# Messages of the dispatch stream

`DispatchTaskMessage` of `app/streams/models.py`.  The data of a stream entry is held by the document
that `json.loads` makes of it.
-/

namespace CountyFlow.Streams

open CountyFlow.Core

/-! ### Timestamps -/

/-- A number of the given width, and what follows it. -/
def digits : ℕ → List Char → Option (ℕ × List Char)
  | 0, text => some (0, text)
  | _ + 1, [] => none
  | width + 1, c :: text =>
    if c.isDigit then
      (digits width text).map fun (value, rest) => ((c.toNat - 48) * 10 ^ width + value, rest)
    else none

def separator (separated : Bool) (c : Char) (text : List Char) : Option (List Char) :=
  if separated then (if text.head? = some c then some text.tail else none) else some text

def isLeap (year : ℕ) : Bool := year % 4 = 0 ∧ (year % 100 ≠ 0 ∨ year % 400 = 0)

def daysInMonth (year month : ℕ) : ℕ :=
  if month = 2 then (if isLeap year then 29 else 28)
  else if month ∈ [4, 6, 9, 11] then 30
  else 31

/-- The day of the week on which a year begins; Monday is `0`. -/
def firstWeekday (year : ℕ) : ℕ :=
  (year - 1 + (year - 1) / 4 - (year - 1) / 100 + (year - 1) / 400) % 7

/-- A year has a 53rd week when its first or its last day is a Thursday. -/
def weeksInYear (year : ℕ) : ℕ :=
  if firstWeekday year = 3 ∨ (firstWeekday year = 2 ∧ isLeap year = true) then 53 else 52

/-- `YYYY-MM-DD` or `YYYYMMDD`. -/
def calendarDate (separated : Bool) (text : List Char) : Option (List Char) := do
  let (year, text) ← digits 4 text
  let text ← separator separated '-' text
  let (month, text) ← digits 2 text
  let text ← separator separated '-' text
  let (day, text) ← digits 2 text
  if 1 ≤ year ∧ 1 ≤ month ∧ month ≤ 12 ∧ 1 ≤ day ∧ day ≤ daysInMonth year month then some text else none

/-- `YYYY-Www-D` or `YYYYWwwD`, the day where `withDay`. -/
def weekDate (separated withDay : Bool) (text : List Char) : Option (List Char) := do
  let (year, text) ← digits 4 text
  let text ← separator separated '-' text
  let text ← separator true 'W' text
  let (week, text) ← digits 2 text
  let (day, text) ← if withDay then separator separated '-' text >>= digits 1 else some (1, text)
  -- the last two days of the last week are past the end of the years
  if 1 ≤ year ∧ 1 ≤ week ∧ week ≤ weeksInYear year ∧ 1 ≤ day ∧ day ≤ 7 ∧
      ¬ (year = 9999 ∧ week = 52 ∧ 6 ≤ day) then some text else none

/-- Hours, minutes, seconds and microseconds of a clock. -/
abbrev Clock := ℕ × ℕ × ℕ × ℕ

/-- The digits after the point, of which six count. -/
def fraction (text : List Char) : Option ℕ :=
  if text ≠ [] ∧ text.all Char.isDigit then
    (digits 6 ((text ++ ['0', '0', '0', '0', '0']).take 6)).map Prod.fst
  else none

/-- `HH[:MM[:SS[.f+]]]`, all of the text. -/
def clock (text : List Char) : Option Clock := do
  let (hours, text) ← digits 2 text
  if text = [] then some (hours, 0, 0, 0) else
  let separated := text.head? = some ':'
  let text ← separator separated ':' text
  let (minutes, text) ← digits 2 text
  if text = [] then some (hours, minutes, 0, 0) else
  let text ← separator separated ':' text
  let (seconds, text) ← digits 2 text
  if text = [] then some (hours, minutes, seconds, 0) else
  if text.head? = some '.' ∨ text.head? = some ',' then
    (fraction text.tail).map fun micros => (hours, minutes, seconds, micros)
  else none

def Clock.microseconds : Clock → ℕ
  | (hours, minutes, seconds, micros) => ((hours * 60 + minutes) * 60 + seconds) * 1000000 + micros

/-- The offset of a zone: `Z` or `±HH[:MM[:SS[.f+]]]`, less than a day. -/
def zoneOffset : List Char → Option ℤ
  | ['Z'] => some 0
  | sign :: text =>
    if sign = '+' ∨ sign = '-' then do
      let offset := (← clock text).microseconds
      if offset < 86400000000 then some (if sign = '-' then -(offset : ℤ) else offset) else none
    else none
  | [] => none

/-- A time of day and its zone; the answer is the offset of the zone, `none` inside without a zone. -/
def timeOfDay (text : List Char) : Option (Option ℤ) := do
  let isZone := fun c => c = 'Z' ∨ c = '+' ∨ c = '-'
  let (hours, minutes, seconds, _) ← clock (text.takeWhile fun c => ¬ isZone c)
  if hours < 24 ∧ minutes < 60 ∧ seconds < 60 then
    match text.dropWhile fun c => ¬ isZone c with
    | [] => some none
    | zone => (zoneOffset zone).map some
  else none

/-- `datetime.fromisoformat(text).utcoffset()`; outside `none` is a `ValueError`.  Any character may stand
between the date and the time. -/
def utcoffset (text : List Char) : Option (Option ℤ) :=
  [calendarDate true text, weekDate true true text, calendarDate false text, weekDate false true text,
    weekDate true false text, weekDate false false text].findSome? fun
    | none => none
    | some [] => some none
    | some [_] => some none
    | some (_ :: time) => timeOfDay time

/-- `_utc_timestamp` lets a text through. -/
def isUtc (text : String) : Bool := utcoffset text.toList = some (some 0)

example : (["2026-08-21T00:00:00+00:00", "2026-08-21 08:30:00.25Z", "20260821T0830Z", "2026-W34-5T08Z",
    "2026-08-21T00:00:00", "2026-08-21T08:00:00+08:00", "2026-02-29T00:00:00Z"].map isUtc) =
    [true, true, true, true, false, false, false] := by
  decide +kernel

/-! ### Reading a message -/

structure QueueMessageError where
  text : String
  deriving DecidableEq, Repr

/-- `DispatchTaskPayload`; the last two keys may be missing. -/
structure DispatchTaskPayload where
  driverId : String
  vehicleId : String
  routeId : String
  anomalyType : String
  anomalyDescription : String
  vehicleStatus : String
  incidentNodeId : Option (Option String)
  affectedEdgeId : Option (Option String)
  deriving DecidableEq, Repr

/-- `DispatchTaskMessage`; its schema version is `"1"`. -/
structure DispatchTaskMessage where
  taskId : String
  orderId : ℤ
  anomalyId : Option ℤ
  idempotencyKey : String
  createdAt : String
  payload : DispatchTaskPayload
  correlationId : Option String
  deriving DecidableEq, Repr

def requiredText (raw : State) (field : String) : Except QueueMessageError String :=
  match raw.get field with
  | .str value => if value = "" then .error ⟨"Stream message field " ++ field ++ " is required."⟩
      else .ok value
  | _ => .error ⟨"Stream message field " ++ field ++ " is required."⟩

def integer (value : Value) (field : String) : Except QueueMessageError ℤ :=
  match value with
  | .int z => .ok z
  | _ => .error ⟨"Stream message field " ++ field ++ " must be an integer."⟩

/-- A field that may be `None`. -/
def optionalText (raw : State) (field : String) : Except QueueMessageError (Option String) :=
  match raw.get field with
  | .none => .ok none
  | .str value => if value = "" then .error ⟨"Stream message field " ++ field ++ " is invalid."⟩
      else .ok (some value)
  | _ => .error ⟨"Stream message field " ++ field ++ " is invalid."⟩

def utcTimestamp : Value → Except QueueMessageError String
  | .str value => if isUtc value then .ok value
      else .error ⟨"Stream message created_at must be ISO-8601 UTC."⟩
  | _ => .error ⟨"Stream message field created_at is required."⟩

/-- A key that may be missing. -/
def presentText (raw : State) (field : String) : Except QueueMessageError (Option (Option String)) :=
  match raw.lookup field with
  | none => .ok none
  | some _ => do return some (← optionalText raw field)

/-- `value.get("vehicle_status", "NORMAL")`, checked. -/
def vehicleStatusOf (raw : State) : Except QueueMessageError String :=
  match (raw.lookup "vehicle_status").getD (.str "NORMAL") with
  | .str value => if value = "" then .error ⟨"Stream message field vehicle_status is invalid."⟩ else .ok value
  | _ => .error ⟨"Stream message field vehicle_status is invalid."⟩

/-- `_payload`. -/
def payloadOf : Value → Except QueueMessageError DispatchTaskPayload
  | .dict value => do
      let vehicleStatus ← vehicleStatusOf value
      let driverId ← requiredText value "driver_id"
      let vehicleId ← requiredText value "vehicle_id"
      let routeId ← requiredText value "route_id"
      let anomalyType ← requiredText value "anomaly_type"
      let anomalyDescription ← requiredText value "anomaly_description"
      let incidentNodeId ← presentText value "incident_node_id"
      let affectedEdgeId ← presentText value "affected_edge_id"
      return ⟨driverId, vehicleId, routeId, anomalyType, anomalyDescription, vehicleStatus, incidentNodeId,
        affectedEdgeId⟩
  | _ => .error ⟨"Stream message payload is required."⟩

namespace DispatchTaskMessage

/-- `anomaly_id`, which may be `None`. -/
def anomalyIdOf (raw : State) : Except QueueMessageError (Option ℤ) :=
  match raw.get "anomaly_id" with
  | .none => .ok none
  | value => do return some (← integer value "anomaly_id")

/-- `from_json`; `none` is what `json.loads` does not read. -/
def fromJson : Option Value → Except QueueMessageError DispatchTaskMessage
  | none => .error ⟨"Stream message is not valid JSON."⟩
  | some (.dict raw) =>
    if State.get raw "schema_version" ≠ .str "1" then .error ⟨"Stream message schema version is unsupported."⟩
    else do
      let taskId ← requiredText raw "task_id"
      let idempotencyKey ← requiredText raw "idempotency_key"
      let orderId ← integer (State.get raw "order_id") "order_id"
      let anomalyId ← anomalyIdOf raw
      let createdAt ← utcTimestamp (State.get raw "created_at")
      let payload ← payloadOf (State.get raw "payload")
      let correlationId ← optionalText raw "correlation_id"
      return ⟨taskId, orderId, anomalyId, idempotencyKey, createdAt, payload, correlationId⟩
  | some _ => .error ⟨"Stream message must be a JSON object."⟩

/-- A text that may be `None`, as a value. -/
def optionalValue : Option String → Value
  | none => .none
  | some text => .str text

def optionalEntry (key : String) : Option (Option String) → State
  | none => []
  | some value => [(key, optionalValue value)]

/-- The payload as `to_json` writes it, its keys sorted. -/
def payloadValue (payload : DispatchTaskPayload) : State :=
  optionalEntry "affected_edge_id" payload.affectedEdgeId ++
    [("anomaly_description", .str payload.anomalyDescription), ("anomaly_type", .str payload.anomalyType),
      ("driver_id", .str payload.driverId)] ++
    optionalEntry "incident_node_id" payload.incidentNodeId ++
    [("route_id", .str payload.routeId), ("vehicle_id", .str payload.vehicleId),
      ("vehicle_status", .str payload.vehicleStatus)]

def entries (message : DispatchTaskMessage) : State :=
  [("anomaly_id", match message.anomalyId with
      | none => .none
      | some id => .int id),
    ("correlation_id", optionalValue message.correlationId),
    ("created_at", .str message.createdAt),
    ("idempotency_key", .str message.idempotencyKey),
    ("order_id", .int message.orderId),
    ("payload", .dict (payloadValue message.payload)),
    ("schema_version", .str "1"),
    ("task_id", .str message.taskId)]

def toJson (message : DispatchTaskMessage) : Value := .dict message.entries

/-- The texts of a payload are there. -/
structure Filled (payload : DispatchTaskPayload) : Prop where
  required : ∀ text ∈ [payload.driverId, payload.vehicleId, payload.routeId, payload.anomalyType,
    payload.anomalyDescription, payload.vehicleStatus], text ≠ ""
  incident : payload.incidentNodeId ≠ some (some "")
  edge : payload.affectedEdgeId ≠ some (some "")

/-- A message that `publish` may be given. -/
structure WellFormed (message : DispatchTaskMessage) : Prop where
  required : ∀ text ∈ [message.taskId, message.idempotencyKey], text ≠ ""
  created : isUtc message.createdAt = true
  correlation : message.correlationId ≠ some ""
  payload : Filled message.payload

end DispatchTaskMessage

end CountyFlow.Streams
