import CountyFlow.Lib.JsonWriting
import CountyFlow.Streams.Message

/-!
# Texts of messages

`DispatchTaskMessage` of `app/streams/models.py` with the JSON texts that stand in the stream.  A `str` is
the list of its code points; `json.loads` reads a `str` with lone surrogates, too.
-/

namespace CountyFlow.Streams.Codec

open CountyFlow.Lib CountyFlow.Lib.Json

/-! ### Checks of fields -/

/-- What reading and writing raise: `QueueMessageError`, or the `ValueError` of an integer of more than
4300 digits. -/
inductive Fault where
  | queueMessage (text : String)
  | valueError
  deriving DecidableEq, Repr

/-- A `str` or `bytes`. -/
inductive Data where
  | text (value : Text)
  | bytes (value : ByteArray)

/-- `value.decode("utf-8")`, of bytes. -/
def Data.decode : Data → Option Text
  | .text value => some value
  | .bytes value => (String.fromUTF8? value).map codes

/-- `raw.get(key)`. -/
def get (raw : List (Text × Json)) (key : String) : Json := (find raw key).getD .null

/-- `raw.get("schema_version") == "1"`. -/
def isVersionOne : Json → Bool
  | .str version => version = codes "1"
  | _ => false

/-- `_required_text`; the messages of two classes differ in how they begin. -/
def requiredText (kind : String) (value : Json) (field : String) : Except Fault Text :=
  match value with
  | .str text =>
    if text = [] then .error (.queueMessage (kind ++ " message field " ++ field ++ " is required."))
      else .ok text
  | _ => .error (.queueMessage (kind ++ " message field " ++ field ++ " is required."))

def integer (kind : String) (value : Json) (field : String) : Except Fault ℤ :=
  match value with
  | .int z => .ok z
  | _ => .error (.queueMessage (kind ++ " message field " ++ field ++ " must be an integer."))

/-- `datetime.fromisoformat` reads an instant of offset zero.  A surrogate may separate the date from the
time, as any other character may, and stands nowhere else. -/
def isUtc (text : Text) : Bool := utcoffset (text.map Char.ofNat) = some (some 0)

def utcTimestamp (kind : String) (value : Json) (field : String) : Except Fault Text :=
  match value with
  | .str text =>
    if isUtc text then .ok text
    else .error (.queueMessage (kind ++ " message " ++ field ++ " must be ISO-8601 UTC."))
  | _ => .error (.queueMessage (kind ++ " message field " ++ field ++ " is required."))

/-- A field that may be `None`. -/
def optionalText (value : Json) (field : String) : Except Fault (Option Text) :=
  match value with
  | .null => .ok none
  | .str text =>
    if text = [] then .error (.queueMessage ("Stream message field " ++ field ++ " is invalid."))
      else .ok (some text)
  | _ => .error (.queueMessage ("Stream message field " ++ field ++ " is invalid."))

/-- `_optional_text`, of a key that may be missing. -/
def presentText (raw : List (Text × Json)) (field : String) : Except Fault (Option (Option Text)) :=
  match find raw field with
  | none => .ok none
  | some value => (optionalText value field).map some

/-- The value of a text that may be `None`. -/
def optionalValue : Option Text → Json
  | none => .null
  | some text => .str text

def optionalEntry (key : String) : Option (Option Text) → List (Text × Json)
  | none => []
  | some value => [(codes key, optionalValue value)]

/-- What a text is decoded and parsed to. -/
def loadsData (kind : String) (data : Data) : Except Fault Json :=
  match data.decode with
  | none => .error (.queueMessage (kind ++ " message is not valid JSON."))
  | some text =>
    match loads text with
    | .ok raw => .ok raw
    | .error .malformed => .error (.queueMessage (kind ++ " message is not valid JSON."))
    | .error .tooManyDigits => .error .valueError

/-- `json.dumps`, of a dictionary with its keys in order. -/
def dumpsData (entries : List (Text × Json)) : Except Fault Text :=
  match dumps (.dict entries) with
  | .ok text => .ok text
  | .error _ => .error .valueError

variable {z : ℤ} {raw : Json} {data : Data}

section Fields

variable {kind field : String} {value : Json} {text : Text}

theorem requiredText_eq_ok : requiredText kind value field = .ok text ↔ value = .str text ∧ text ≠ [] := by
  unfold requiredText
  split
  · rename_i found
    split
    · rename_i hnil
      constructor
      · intro h
        cases h
      · rintro ⟨h, hne⟩
        exact absurd (Json.str.inj h ▸ hnil) hne
    · rename_i hne
      constructor
      · intro h
        cases h
        exact ⟨rfl, hne⟩
      · rintro ⟨h, -⟩
        rw [Json.str.inj h]
  · rename_i hother
    constructor
    · intro h
      cases h
    · rintro ⟨rfl, -⟩
      exact absurd rfl (hother text)

theorem integer_eq_ok : integer kind value field = .ok z ↔ value = .int z := by
  unfold integer
  split
  · rename_i found
    constructor
    · intro h
      rw [Except.ok.inj h]
    · intro h
      rw [Json.int.inj h]
  · rename_i hother
    constructor
    · intro h
      cases h
    · rintro rfl
      exact absurd rfl (hother z)

theorem utcTimestamp_eq_ok :
    utcTimestamp kind value field = .ok text ↔ value = .str text ∧ isUtc text = true := by
  unfold utcTimestamp
  split
  · rename_i found
    split
    · rename_i hutc
      constructor
      · intro h
        cases h
        exact ⟨rfl, hutc⟩
      · rintro ⟨h, -⟩
        rw [Json.str.inj h]
    · rename_i hutc
      constructor
      · intro h
        cases h
      · rintro ⟨h, hutc'⟩
        exact absurd (Json.str.inj h ▸ hutc') hutc
  · rename_i hother
    constructor
    · intro h
      cases h
    · rintro ⟨rfl, -⟩
      exact absurd rfl (hother text)

theorem optionalText_eq_ok {read : Option Text} :
    optionalText value field = .ok read ↔ value = optionalValue read ∧ read ≠ some [] := by
  unfold optionalText
  split
  · constructor
    · intro h
      cases h
      exact ⟨rfl, nofun⟩
    · rintro ⟨h, -⟩
      cases read with
      | none => rfl
      | some text => cases h
  · rename_i found
    split
    · rename_i hnil
      constructor
      · intro h
        cases h
      · rintro ⟨h, hne⟩
        cases read with
        | none => cases h
        | some text => exact absurd (congrArg some (Json.str.inj h ▸ hnil)) hne
    · rename_i hne
      constructor
      · intro h
        cases h
        exact ⟨rfl, fun h => hne (Option.some.inj h)⟩
      · rintro ⟨h, -⟩
        cases read with
        | none => cases h
        | some text => rw [Json.str.inj h]
  · rename_i hnull hother
    constructor
    · intro h
      cases h
    · rintro ⟨rfl, -⟩
      cases read with
      | none => exact absurd rfl hnull
      | some text => exact absurd rfl (hother text)

theorem presentText_eq_ok {raw : List (Text × Json)} {read : Option (Option Text)} :
    presentText raw field = .ok read ↔ find raw field = read.map optionalValue ∧ read ≠ some (some []) := by
  unfold presentText
  split
  · rename_i hnone
    rw [hnone]
    constructor
    · intro h
      cases h
      exact ⟨rfl, nofun⟩
    · rintro ⟨h, -⟩
      cases read with
      | none => rfl
      | some found => cases h
  · rename_i found hfound
    rw [hfound, map_eq_ok]
    constructor
    · rintro ⟨got, hgot, rfl⟩
      obtain ⟨hvalue, hne⟩ := optionalText_eq_ok.mp hgot
      exact ⟨congrArg some hvalue, fun h => hne (Option.some.inj h)⟩
    · rintro ⟨h, hne⟩
      cases read with
      | none => cases h
      | some got =>
        exact ⟨got, optionalText_eq_ok.mpr ⟨Option.some.inj h, fun h => hne (congrArg some h)⟩, rfl⟩

theorem loadsData_text (h : loads text = .ok raw) : loadsData kind (.text text) = .ok raw := by
  simp only [loadsData, Data.decode, h]

theorem loadsData_eq_ok (h : loadsData kind data = .ok raw) : ∃ text, loads text = .ok raw := by
  unfold loadsData at h
  split at h
  · cases h
  · rename_i text htext
    split at h
    · rename_i raw' hraw
      cases h
      exact ⟨text, hraw⟩
    · cases h
    · cases h

theorem dumpsData_eq_ok {entries : List (Text × Json)} :
    dumpsData entries = .ok text ↔ dumps (.dict entries) = .ok text := by
  unfold dumpsData
  split
  · rename_i written hwritten
    rw [hwritten]
    exact ⟨fun h => congrArg _ (Except.ok.inj h), fun h => congrArg _ (Except.ok.inj h)⟩
  · rename_i e herror
    rw [herror]
    exact ⟨nofun, nofun⟩

end Fields

theorem exact_optionalValue (value : Option Text) : Exact (optionalValue value) := by
  cases value <;> trivial

theorem written_optionalValue (value : Option Text) : Written (optionalValue value) := by
  cases value with
  | none => exact written_null
  | some text => exact written_str text

theorem written_optionalEntry (key : String) (value : Option (Option Text)) :
    ∀ entry ∈ optionalEntry key value, Written entry.2 := by
  cases value with
  | none => exact nofun
  | some value =>
    intro entry hentry
    rw [List.mem_singleton.mp hentry]
    exact written_optionalValue value

theorem find_optionalEntry (k key : String) (value : Option (Option Text)) :
    find (optionalEntry k value) key = if k = key then value.map optionalValue else none := by
  cases value with
  | none => simp [optionalEntry, find_nil]
  | some value => simp [optionalEntry, find_cons, find_nil]

/-! ### Payloads -/

structure DispatchTaskPayload where
  driverId : Text
  vehicleId : Text
  routeId : Text
  anomalyType : Text
  anomalyDescription : Text
  vehicleStatus : Text
  incidentNodeId : Option (Option Text)
  affectedEdgeId : Option (Option Text)
  deriving DecidableEq, Repr

/-- `value.get("vehicle_status", "NORMAL")`, checked. -/
def vehicleStatusOf (raw : List (Text × Json)) : Except Fault Text :=
  match (find raw "vehicle_status").getD (.str (codes "NORMAL")) with
  | .str value =>
    if value = [] then .error (.queueMessage "Stream message field vehicle_status is invalid.") else .ok value
  | _ => .error (.queueMessage "Stream message field vehicle_status is invalid.")

/-- `_payload`. -/
def payloadOf : Json → Except Fault DispatchTaskPayload
  | .dict value => do
      let vehicleStatus ← vehicleStatusOf value
      let driverId ← requiredText "Stream" (get value "driver_id") "driver_id"
      let vehicleId ← requiredText "Stream" (get value "vehicle_id") "vehicle_id"
      let routeId ← requiredText "Stream" (get value "route_id") "route_id"
      let anomalyType ← requiredText "Stream" (get value "anomaly_type") "anomaly_type"
      let anomalyDescription ← requiredText "Stream" (get value "anomaly_description") "anomaly_description"
      let incidentNodeId ← presentText value "incident_node_id"
      let affectedEdgeId ← presentText value "affected_edge_id"
      .ok ⟨driverId, vehicleId, routeId, anomalyType, anomalyDescription, vehicleStatus, incidentNodeId,
        affectedEdgeId⟩
  | _ => .error (.queueMessage "Stream message payload is required.")

namespace DispatchTaskPayload

/-- The payload as it is written, its keys in order. -/
def entries (payload : DispatchTaskPayload) : List (Text × Json) :=
  optionalEntry "affected_edge_id" payload.affectedEdgeId ++
    [(codes "anomaly_description", .str payload.anomalyDescription),
      (codes "anomaly_type", .str payload.anomalyType), (codes "driver_id", .str payload.driverId)] ++
    optionalEntry "incident_node_id" payload.incidentNodeId ++
    [(codes "route_id", .str payload.routeId), (codes "vehicle_id", .str payload.vehicleId),
      (codes "vehicle_status", .str payload.vehicleStatus)]

structure Filled (payload : DispatchTaskPayload) : Prop where
  required : ∀ text ∈ [payload.driverId, payload.vehicleId, payload.routeId, payload.anomalyType,
    payload.anomalyDescription, payload.vehicleStatus], text ≠ []
  incident : payload.incidentNodeId ≠ some (some [])
  edge : payload.affectedEdgeId ≠ some (some [])

theorem exact_entries (payload : DispatchTaskPayload) : Exact (.dict payload.entries) := by
  have hkeys : payload.entries.map Prod.fst =
    ((payload.affectedEdgeId.map fun _ => "affected_edge_id").toList ++
      ["anomaly_description", "anomaly_type", "driver_id"] ++
      (payload.incidentNodeId.map fun _ => "incident_node_id").toList ++
      ["route_id", "vehicle_id", "vehicle_status"]).map codes := by
    unfold entries
    cases payload.affectedEdgeId <;> cases payload.incidentNodeId <;> rfl
  refine ⟨?_, ?_⟩
  · rw [hkeys]
    apply List.Nodup.map codes_injective
    cases payload.affectedEdgeId <;> cases payload.incidentNodeId <;> simp
  · unfold entries
    cases payload.affectedEdgeId <;> cases payload.incidentNodeId <;>
      simp [optionalEntry, ExactMembers, exact_optionalValue, Exact]

theorem written_entries (payload : DispatchTaskPayload) : Written (.dict payload.entries) := by
  rw [written_dict, entries]
  simp only [List.forall_mem_append, List.forall_mem_cons]
  exact ⟨⟨⟨written_optionalEntry _ _, written_str _, written_str _, written_str _, nofun⟩,
    written_optionalEntry _ _⟩, written_str _, written_str _, written_str _, nofun⟩

theorem find_entries (payload : DispatchTaskPayload) (key : String) : find payload.entries key =
    (((if "affected_edge_id" = key then payload.affectedEdgeId.map optionalValue else none).or
      (if "anomaly_description" = key then some (.str payload.anomalyDescription)
        else if "anomaly_type" = key then some (.str payload.anomalyType)
        else if "driver_id" = key then some (.str payload.driverId) else none)).or
      (if "incident_node_id" = key then payload.incidentNodeId.map optionalValue else none)).or
      (if "route_id" = key then some (.str payload.routeId)
        else if "vehicle_id" = key then some (.str payload.vehicleId)
        else if "vehicle_status" = key then some (.str payload.vehicleStatus) else none) := by
  simp only [entries, find_append, find_optionalEntry, find_cons, find_nil]

end DispatchTaskPayload

theorem vehicleStatusOf_eq_ok {raw : List (Text × Json)} {status : Text} : vehicleStatusOf raw = .ok status ↔
    (find raw "vehicle_status").getD (.str (codes "NORMAL")) = .str status ∧ status ≠ [] := by
  unfold vehicleStatusOf
  split
  · rename_i found hfound
    rw [hfound]
    split
    · rename_i hnil
      constructor
      · intro h
        cases h
      · rintro ⟨h, hne⟩
        exact absurd (Json.str.inj h ▸ hnil) hne
    · rename_i hne
      constructor
      · intro h
        cases h
        exact ⟨rfl, hne⟩
      · rintro ⟨h, -⟩
        rw [Json.str.inj h]
  · rename_i hother
    constructor
    · intro h
      cases h
    · rintro ⟨h, -⟩
      exact absurd h (hother status)

variable {payload : DispatchTaskPayload}

theorem filled_of_payloadOf (h : payloadOf raw = .ok payload) : payload.Filled := by
  cases raw with
  | dict value =>
    obtain ⟨status, hstatus, h⟩ := bind_eq_ok.mp h
    obtain ⟨driver, hdriver, h⟩ := bind_eq_ok.mp h
    obtain ⟨vehicle, hvehicle, h⟩ := bind_eq_ok.mp h
    obtain ⟨route, hroute, h⟩ := bind_eq_ok.mp h
    obtain ⟨kind, hkind, h⟩ := bind_eq_ok.mp h
    obtain ⟨description, hdescription, h⟩ := bind_eq_ok.mp h
    obtain ⟨incident, hincident, h⟩ := bind_eq_ok.mp h
    obtain ⟨edge, hedge, h⟩ := bind_eq_ok.mp h
    cases h
    refine ⟨?_, (presentText_eq_ok.mp hincident).2, (presentText_eq_ok.mp hedge).2⟩
    simp only [List.forall_mem_cons]
    exact ⟨(requiredText_eq_ok.mp hdriver).2, (requiredText_eq_ok.mp hvehicle).2,
      (requiredText_eq_ok.mp hroute).2, (requiredText_eq_ok.mp hkind).2,
      (requiredText_eq_ok.mp hdescription).2, (vehicleStatusOf_eq_ok.mp hstatus).2, nofun⟩
  | _ => cases h

theorem payloadOf_entries (h : payload.Filled) : payloadOf (.dict payload.entries) = .ok payload := by
  have hrequired := h.required
  simp only [List.forall_mem_cons] at hrequired
  obtain ⟨hdriver, hvehicle, hroute, htype, hdescription, hstatus, -⟩ := hrequired
  refine bind_eq_ok.mpr ⟨_, vehicleStatusOf_eq_ok.mpr ⟨by simp [DispatchTaskPayload.find_entries], hstatus⟩,
    ?_⟩
  refine bind_eq_ok.mpr ⟨_, requiredText_eq_ok.mpr ⟨by simp [get, DispatchTaskPayload.find_entries], hdriver⟩,
    ?_⟩
  refine bind_eq_ok.mpr ⟨_,
    requiredText_eq_ok.mpr ⟨by simp [get, DispatchTaskPayload.find_entries], hvehicle⟩, ?_⟩
  refine bind_eq_ok.mpr ⟨_, requiredText_eq_ok.mpr ⟨by simp [get, DispatchTaskPayload.find_entries], hroute⟩,
    ?_⟩
  refine bind_eq_ok.mpr ⟨_, requiredText_eq_ok.mpr ⟨by simp [get, DispatchTaskPayload.find_entries], htype⟩,
    ?_⟩
  refine bind_eq_ok.mpr ⟨_,
    requiredText_eq_ok.mpr ⟨by simp [get, DispatchTaskPayload.find_entries], hdescription⟩, ?_⟩
  refine bind_eq_ok.mpr ⟨_, presentText_eq_ok.mpr ⟨by simp [DispatchTaskPayload.find_entries], h.incident⟩,
    ?_⟩
  exact bind_eq_ok.mpr ⟨_, presentText_eq_ok.mpr ⟨by simp [DispatchTaskPayload.find_entries], h.edge⟩, rfl⟩

/-! ### Messages -/

/-- `DispatchTaskMessage`; its schema version is `"1"`. -/
structure DispatchTaskMessage where
  taskId : Text
  orderId : ℤ
  anomalyId : Option ℤ
  idempotencyKey : Text
  createdAt : Text
  payload : DispatchTaskPayload
  correlationId : Option Text
  deriving DecidableEq, Repr

variable {message : DispatchTaskMessage}

namespace DispatchTaskMessage

/-- `anomaly_id`, which may be `None`. -/
def anomalyIdOf (value : Json) : Except Fault (Option ℤ) :=
  match value with
  | .null => .ok none
  | value => (integer "Stream" value "anomaly_id").map some

/-- The value of an id that may be `None`. -/
def anomalyValue : Option ℤ → Json
  | none => .null
  | some z => .int z

/-- `from_json`, after `json.loads`. -/
def ofRaw : Json → Except Fault DispatchTaskMessage
  | .dict raw =>
    if isVersionOne (get raw "schema_version") then do
      let taskId ← requiredText "Stream" (get raw "task_id") "task_id"
      let idempotencyKey ← requiredText "Stream" (get raw "idempotency_key") "idempotency_key"
      let orderId ← integer "Stream" (get raw "order_id") "order_id"
      let anomalyId ← anomalyIdOf (get raw "anomaly_id")
      let createdAt ← utcTimestamp "Stream" (get raw "created_at") "created_at"
      let payload ← payloadOf (get raw "payload")
      let correlationId ← optionalText (get raw "correlation_id") "correlation_id"
      .ok ⟨taskId, orderId, anomalyId, idempotencyKey, createdAt, payload, correlationId⟩
    else .error (.queueMessage "Stream message schema version is unsupported.")
  | _ => .error (.queueMessage "Stream message must be a JSON object.")

def fromJson (data : Data) : Except Fault DispatchTaskMessage := loadsData "Stream" data >>= ofRaw

/-- The message as it is written, its keys in order. -/
def entries (message : DispatchTaskMessage) : List (Text × Json) :=
  [(codes "anomaly_id", anomalyValue message.anomalyId),
    (codes "correlation_id", optionalValue message.correlationId),
    (codes "created_at", .str message.createdAt),
    (codes "idempotency_key", .str message.idempotencyKey),
    (codes "order_id", .int message.orderId),
    (codes "payload", .dict message.payload.entries),
    (codes "schema_version", .str (codes "1")),
    (codes "task_id", .str message.taskId)]

def toJson (message : DispatchTaskMessage) : Except Fault Text := dumpsData message.entries

/-- A message that `from_json` lets through. -/
structure WellFormed (message : DispatchTaskMessage) : Prop where
  required : ∀ text ∈ [message.taskId, message.idempotencyKey], text ≠ []
  order : Short message.orderId
  anomaly : ∀ z ∈ message.anomalyId, Short z
  created : isUtc message.createdAt = true
  correlation : message.correlationId ≠ some []
  payload : message.payload.Filled

def Survives (message : DispatchTaskMessage) : Prop :=
  ∃ text, message.toJson = .ok text ∧ fromJson (.text text) = .ok message

theorem anomalyIdOf_eq_ok {value : Json} {read : Option ℤ} : anomalyIdOf value = .ok read ↔
    value = anomalyValue read := by
  unfold anomalyIdOf
  split
  · constructor
    · intro h
      cases h
      rfl
    · intro h
      cases read with
      | none => rfl
      | some z => cases h
  · rename_i hnull
    rw [map_eq_ok]
    constructor
    · rintro ⟨z, hz, rfl⟩
      exact integer_eq_ok.mp hz
    · intro h
      cases read with
      | none => exact absurd h hnull
      | some z => exact ⟨z, integer_eq_ok.mpr h, rfl⟩

theorem short_get {entries : List (Text × Json)} (h : ShortIn (.dict entries)) {key : String}
    (hz : get entries key = .int z) : Short z := by
  unfold get find at hz
  cases hlookup : entries.lookup (codes key) with
  | none =>
    rw [hlookup] at hz
    cases hz
  | some found =>
    rw [hlookup] at hz
    obtain ⟨front, back, hsplit, -⟩ := List.lookup_eq_some_iff.mp hlookup
    refine h (codes key, found) ?_ z hz
    rw [hsplit]
    simp

theorem wellFormed_of_fromJson (h : fromJson data = .ok message) : message.WellFormed := by
  obtain ⟨raw, hraw, h⟩ := bind_eq_ok.mp h
  obtain ⟨text, htext⟩ := loadsData_eq_ok hraw
  have hshort := loads_shortIn htext
  cases raw with
  | dict raw =>
    simp only [ofRaw] at h
    split at h
    · obtain ⟨taskId, htask, h⟩ := bind_eq_ok.mp h
      obtain ⟨key, hkey, h⟩ := bind_eq_ok.mp h
      obtain ⟨orderId, horder, h⟩ := bind_eq_ok.mp h
      obtain ⟨anomalyId, hanomaly, h⟩ := bind_eq_ok.mp h
      obtain ⟨createdAt, hcreated, h⟩ := bind_eq_ok.mp h
      obtain ⟨payload, hpayload, h⟩ := bind_eq_ok.mp h
      obtain ⟨correlationId, hcorrelation, h⟩ := bind_eq_ok.mp h
      cases h
      refine ⟨?_, short_get hshort (integer_eq_ok.mp horder), ?_, (utcTimestamp_eq_ok.mp hcreated).2,
        (optionalText_eq_ok.mp hcorrelation).2, filled_of_payloadOf hpayload⟩
      · simp only [List.forall_mem_cons]
        exact ⟨(requiredText_eq_ok.mp htask).2, (requiredText_eq_ok.mp hkey).2, nofun⟩
      · rintro z ⟨⟩
        exact short_get hshort (anomalyIdOf_eq_ok.mp hanomaly)
    · cases h
  | _ => cases h

theorem ofRaw_entries (h : message.WellFormed) : ofRaw (.dict message.entries) = .ok message := by
  have hrequired := h.required
  simp only [List.forall_mem_cons] at hrequired
  obtain ⟨htask, hkey, -⟩ := hrequired
  have hversion : isVersionOne (get message.entries "schema_version") = true := by
    simp [get, entries, find_cons, isVersionOne]
  simp only [ofRaw, hversion, if_true]
  refine bind_eq_ok.mpr ⟨_, requiredText_eq_ok.mpr ⟨by simp [get, entries, find_cons], htask⟩, ?_⟩
  refine bind_eq_ok.mpr ⟨_, requiredText_eq_ok.mpr ⟨by simp [get, entries, find_cons], hkey⟩, ?_⟩
  refine bind_eq_ok.mpr ⟨_, integer_eq_ok.mpr (by simp [get, entries, find_cons]; rfl), ?_⟩
  refine bind_eq_ok.mpr ⟨_, anomalyIdOf_eq_ok.mpr (by simp [get, entries, find_cons]; rfl), ?_⟩
  refine bind_eq_ok.mpr ⟨_, utcTimestamp_eq_ok.mpr ⟨by simp [get, entries, find_cons], h.created⟩, ?_⟩
  have hpayload : get message.entries "payload" = .dict message.payload.entries := by
    simp [get, entries, find_cons]
  rw [hpayload]
  refine bind_eq_ok.mpr ⟨_, payloadOf_entries h.payload, ?_⟩
  exact bind_eq_ok.mpr ⟨_, optionalText_eq_ok.mpr ⟨by simp [get, entries, find_cons], h.correlation⟩, rfl⟩

theorem exact_entries (message : DispatchTaskMessage) : Exact (.dict message.entries) := by
  refine ⟨?_, ?_⟩
  · have hkeys : message.entries.map Prod.fst = ["anomaly_id", "correlation_id", "created_at",
      "idempotency_key",
        "order_id", "payload", "schema_version", "task_id"].map codes := rfl
    rw [hkeys]
    exact List.Nodup.map codes_injective (by decide)
  · refine ⟨?_, exact_optionalValue _, trivial, trivial, trivial, message.payload.exact_entries, trivial,
      trivial, trivial⟩
    cases message.anomalyId <;> trivial

theorem written_anomalyValue {anomalyId : Option ℤ} :
    Written (anomalyValue anomalyId) ↔ ∀ z ∈ anomalyId, Short z := by
  cases anomalyId with
  | none => exact ⟨fun _ => nofun, fun _ => written_null⟩
  | some z => exact written_int.trans ⟨fun h z' hz => Option.some.inj hz ▸ h, fun h => h z rfl⟩

theorem written_entries : Written (.dict message.entries) ↔
    Short message.orderId ∧ ∀ z ∈ message.anomalyId, Short z := by
  rw [written_dict, entries]
  simp only [List.forall_mem_cons, written_int, written_anomalyValue]
  constructor
  · rintro ⟨hanomaly, -, -, -, horder, -⟩
    exact ⟨horder, hanomaly⟩
  · rintro ⟨horder, hanomaly⟩
    exact ⟨hanomaly, written_optionalValue _, written_str _, written_str _, horder,
      message.payload.written_entries, written_str _, written_str _, nofun⟩

theorem survives_iff : message.Survives ↔ message.WellFormed := by
  constructor
  · rintro ⟨text, -, h⟩
    exact wellFormed_of_fromJson h
  · intro h
    obtain ⟨text, htext⟩ := written_entries.mpr ⟨h.order, h.anomaly⟩
    refine ⟨text, dumpsData_eq_ok.mpr htext, ?_⟩
    exact bind_eq_ok.mpr ⟨_, loadsData_text (loads_dumps htext message.exact_entries), ofRaw_entries h⟩

end DispatchTaskMessage

/-! ### Messages of strings -/

theorem map_codes (s : String) : (codes s).map Char.ofNat = s.toList := by
  unfold codes
  rw [List.map_map]
  exact List.map_id'' (fun c => Char.ofNat_toNat c) s.toList

theorem isUtc_codes (s : String) : isUtc (codes s) = Streams.isUtc s := by
  rw [isUtc, map_codes]
  rfl

theorem codes_eq_nil {s : String} : codes s = [] ↔ s = "" := by
  constructor
  · intro h
    exact codes_injective h
  · rintro rfl
    rfl

def DispatchTaskPayload.ofDocument (payload : Streams.DispatchTaskPayload) : DispatchTaskPayload where
  driverId := codes payload.driverId
  vehicleId := codes payload.vehicleId
  routeId := codes payload.routeId
  anomalyType := codes payload.anomalyType
  anomalyDescription := codes payload.anomalyDescription
  vehicleStatus := codes payload.vehicleStatus
  incidentNodeId := payload.incidentNodeId.map (Option.map codes)
  affectedEdgeId := payload.affectedEdgeId.map (Option.map codes)

def DispatchTaskMessage.ofDocument (message : Streams.DispatchTaskMessage) : DispatchTaskMessage where
  taskId := codes message.taskId
  orderId := message.orderId
  anomalyId := message.anomalyId
  idempotencyKey := codes message.idempotencyKey
  createdAt := codes message.createdAt
  payload := .ofDocument message.payload
  correlationId := message.correlationId.map codes

theorem map_codes_ne_nil {text : Option String} : text.map codes ≠ some [] ↔ text ≠ some "" := by
  cases text with
  | none => simp
  | some text => simp [codes_eq_nil]

theorem map_map_codes_ne_nil {text : Option (Option String)} :
    text.map (Option.map codes) ≠ some (some []) ↔ text ≠ some (some "") := by
  cases text with
  | none => simp
  | some text => simpa using map_codes_ne_nil

theorem filled_ofDocument {payload : Streams.DispatchTaskPayload} :
    (DispatchTaskPayload.ofDocument payload).Filled ↔ Streams.DispatchTaskMessage.Filled payload := by
  have hrequired : (∀ text ∈ [codes payload.driverId, codes payload.vehicleId, codes payload.routeId,
      codes payload.anomalyType, codes payload.anomalyDescription, codes payload.vehicleStatus], text ≠ []) ↔
      ∀ text ∈ [payload.driverId, payload.vehicleId, payload.routeId, payload.anomalyType,
        payload.anomalyDescription, payload.vehicleStatus], text ≠ "" := by
    simp only [List.forall_mem_cons, ne_eq, codes_eq_nil]
    simp
  exact ⟨fun h => ⟨hrequired.mp h.required, map_map_codes_ne_nil.mp h.incident,
    map_map_codes_ne_nil.mp h.edge⟩,
    fun h => ⟨hrequired.mpr h.required, map_map_codes_ne_nil.mpr h.incident, map_map_codes_ne_nil.mpr h.edge⟩⟩

theorem DispatchTaskMessage.wellFormed_ofDocument {message : Streams.DispatchTaskMessage} :
    (DispatchTaskMessage.ofDocument message).WellFormed ↔
      message.WellFormed ∧ Short message.orderId ∧ ∀ z ∈ message.anomalyId, Short z := by
  have hrequired : (∀ text ∈ [codes message.taskId, codes message.idempotencyKey], text ≠ []) ↔
      ∀ text ∈ [message.taskId, message.idempotencyKey], text ≠ "" := by
    simp only [List.forall_mem_cons, ne_eq, codes_eq_nil]
    simp
  constructor
  · intro h
    refine ⟨⟨hrequired.mp h.required, ?_, map_codes_ne_nil.mp h.correlation, filled_ofDocument.mp h.payload⟩,
      h.order, h.anomaly⟩
    rw [← isUtc_codes]
    exact h.created
  · rintro ⟨h, horder, hanomaly⟩
    refine ⟨hrequired.mpr h.required, horder, hanomaly, ?_, map_codes_ne_nil.mpr h.correlation,
      filled_ofDocument.mpr h.payload⟩
    show isUtc (codes message.createdAt) = true
    rw [isUtc_codes]
    exact h.created

end CountyFlow.Streams.Codec
