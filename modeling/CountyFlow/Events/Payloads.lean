import CountyFlow.Core.Value

/-!
# Payloads of routing events

`project_routing_event` of `app/events/graph_payloads.py` with the projections it uses.  `none` stands
for `_INVALID`: the field is left out.

A family of fields with one validator is one definition, given the fields as the source lists them.
-/

namespace CountyFlow.Events

open CountyFlow.Core

/-! ### Validators -/

/-- `_text`. -/
def textValue : Value → Option Value
  | .str s => some (.str s)
  | _ => none

/-- A validator that lets `None` through. -/
def nullable (validator : Value → Option Value) : Value → Option Value
  | .none => some .none
  | v => validator v

def nullableText : Value → Option Value := nullable textValue

/-- `_boolean`. -/
def booleanValue : Value → Option Value
  | .bool b => some (.bool b)
  | _ => none

/-- `_integer`. -/
def integerValue : Value → Option Value
  | .int z => some (.int z)
  | _ => none

def nullableInteger : Value → Option Value := nullable integerValue

/-- `_number`. -/
def numberValue : Value → Option Value
  | .str s => some (.str s)
  | .int z => some (.int z)
  | .num text => some (.num text)
  | _ => none

def nullableNumber : Value → Option Value := nullable numberValue

def isText : Value → Bool
  | .str _ => true
  | _ => false

def stringList : Value → Option Value
  | .list items => if items.all isText then some (.list items) else none
  | _ => none

/-! ### Assembling a payload -/

/-- `target[key] = value`. -/
def assign : State → String → Value → State
  | [], key, value => [(key, value)]
  | (k, v) :: rest, key, value =>
    if k = key then (key, value) :: rest else (k, v) :: assign rest key value

theorem lookup_assign (target : State) (key key' : String) (value : Value) :
    (assign target key value).lookup key' = if key' = key then some value else target.lookup key' := by
  induction target with
  | nil =>
    by_cases h : key' = key
    · simp [assign, h]
    · simp [assign, List.lookup_cons, beq_eq_false_iff_ne.mpr h, h]
  | cons entry rest ih =>
    obtain ⟨k, v⟩ := entry
    by_cases hk : k = key
    · by_cases h : key' = key
      · simp [assign, hk, h]
      · simp [assign, List.lookup_cons, hk, beq_eq_false_iff_ne.mpr h, h]
    · by_cases h : key' = k
      · simp [assign, hk, h]
      · simp only [assign, if_neg hk, List.lookup_cons, beq_eq_false_iff_ne.mpr h, ih]

/-- `target[name] = validator(source[key])`, where the key is there and the value valid. -/
def putAs (name : String) (target source : State) (key : String) (validator : Value → Option Value) :
    State :=
  match source.lookup key >>= validator with
  | none => target
  | some value => assign target name value

def put (target source : State) (key : String) (validator : Value → Option Value) : State :=
  putAs key target source key validator

/-- `_put` of several keys with one validator. -/
def putAll (target source : State) (keys : List String) (validator : Value → Option Value) : State :=
  keys.foldl (fun target key => put target source key validator) target

/-- `_put` of a key, `None` where the source has none. -/
def putOrNone (target source : State) (key : String) (validator : Value → Option Value) : State :=
  match source.lookup key with
  | none => assign target key .none
  | some _ => put target source key validator

/-- `_project_sequence`: what is no object or has no identity is left out. -/
def projectSequence (projector : State → Option State) : Value → Option Value
  | .list items => some (.list (items.filterMap fun
      | .dict source => (projector source).map .dict
      | _ => none))
  | _ => none

variable {target source : State} {key key' : String} {validator : Value → Option Value}

theorem lookup_put (h : key' ≠ key) : (put target source key validator).lookup key' = target.lookup key' := by
  unfold put putAs
  split
  · rfl
  · rw [lookup_assign, if_neg h]

theorem lookup_put_self (h : target.lookup key = none) :
    (put target source key validator).lookup key = source.lookup key >>= validator := by
  unfold put putAs
  split
  · rename_i hnone
    rw [h, hnone]
  · rename_i hsome
    rw [lookup_assign, if_pos rfl, hsome]

theorem lookup_putOrNone
    (h : key' ≠ key) : (putOrNone target source key validator).lookup key' = target.lookup key' := by
  unfold putOrNone
  split
  · rw [lookup_assign, if_neg h]
  · exact lookup_put h

theorem put_congr {source' : State} (validator : Value → Option Value)
    (h : source.lookup key = source'.lookup key) :
    put target source key validator = put target source' key validator := by
  simp only [put, putAs, h]

theorem putOrNone_congr {source' : State} (validator : Value → Option Value)
    (h : source.lookup key = source'.lookup key) :
    putOrNone target source key validator = putOrNone target source' key validator := by
  simp only [putOrNone, put, putAs, h]

/-! ### Projections -/

def projectPath : Value → Option Value
  | .none => some .none
  | .dict value =>
    let projected := putAll [] value ["objective", "scoring_formula"] nullableText
    let projected := putAll projected value ["node_ids", "edge_ids"] stringList
    let projected := putAll projected value ["distance_km", "risk_cost"] nullableNumber
    some (.dict (putAll projected value ["estimated_minutes", "visited_node_count"] nullableInteger))
  | _ => none

def projectGeoPoint (source : State) : Option State :=
  match source.get "longitude", source.get "latitude" with
  | .str longitude, .str latitude =>
    some (put [("longitude", .str longitude), ("latitude", .str latitude)] source "node_id" nullableText)
  | _, _ => none

def projectRealRoadRoute : Value → Option Value
  | .dict value =>
    let projected := putAll [] value
      ["provider", "source", "status", "coordinate_system", "mapping_version", "fallback_reason"]
      nullableText
    let projected := putAll projected value ["distance_meters", "duration_seconds"] nullableInteger
    some (.dict (putAll projected value ["waypoints", "polyline"] (projectSequence projectGeoPoint)))
  | _ => none

def projectRouteScoreComponents : Value → Option Value
  | .none => some .none
  | .dict value => some (.dict (putAll [] value
      ["normalized_minutes", "normalized_distance", "normalized_risk", "time_penalty",
        "distance_penalty", "risk_penalty"] nullableNumber))
  | _ => none

def projectRouteCandidate (source : State) : Option State :=
  match source.get "route_id" with
  | .str routeId =>
    let projected := putAll [("route_id", .str routeId)] source
      ["route_name", "objective", "risk_level", "reason", "scoring_formula", "algorithm_version"]
      nullableText
    let projected := putAll projected source ["distance_km", "risk_cost", "score"] nullableNumber
    let projected := putAll projected source
      ["estimated_minutes", "visited_node_count", "road_network_version"] nullableInteger
    let projected := putAll projected source ["node_ids", "edge_ids"] stringList
    let projected := put projected source "available" booleanValue
    some (put projected source "score_components" projectRouteScoreComponents)
  | _ => none

def projectRoadNode (source : State) : Option State :=
  match source.get "node_id" with
  | .str nodeId =>
    let projected := putAll [("node_id", .str nodeId)] source ["name", "node_type"] textValue
    some (putAll projected source ["x_km", "y_km"] numberValue)
  | _ => none

def projectRoadEdge (source : State) : Option State :=
  match source.get "edge_id" with
  | .str edgeId =>
    let projected := putAll [("edge_id", .str edgeId)] source
      ["name", "from_node_id", "to_node_id", "road_level", "risk_level", "status"] textValue
    let projected := putAll projected source
      ["distance_km", "congestion_factor", "weight_limit_tons"] numberValue
    let projected := putAll projected source ["base_minutes", "version"] integerValue
    some (put projected source "bidirectional" booleanValue)
  | _ => none

/-- The count of a recommended path goes to the payload itself. -/
def putVisitedNodeCount (projected : State) : State :=
  match projected.get "recommended_path" with
  | .dict recommended =>
    match recommended.lookup "visited_node_count" with
    | none => projected
    | some count => assign projected "visited_node_count" count
  | _ => projected

def projectRoutingEvent (patch : State) : State :=
  let projected := putOrNone [] patch "recommended_route" nullableText
  let projected := putOrNone projected patch "decision" nullableText
  let projected := putOrNone projected patch "decision_reason" nullableText
  let projected := putOrNone projected patch "memory_adopted" booleanValue
  let projected := putOrNone projected patch "requires_manual_review" booleanValue
  let projected := putOrNone projected patch "candidate_routes" (projectSequence projectRouteCandidate)
  let projected := put projected patch "adopted_memory_id" nullableText
  let projected := put projected patch "blocked_edge_ids" stringList
  let projected := put projected patch "original_path" projectPath
  let projected := put projected patch "recommended_path" projectPath
  let projected := put projected patch "real_road_route" projectRealRoadRoute
  let projected := put projected patch "distance_delta_km" nullableNumber
  let projected := put projected patch "eta_delta_minutes" nullableInteger
  let projected := put projected patch "routing_status" nullableText
  let projected := putAs "algorithm" projected patch "routing_algorithm" nullableText
  let projected := put projected patch "road_network_version" nullableInteger
  let projected := putAs "network_nodes" projected patch "road_network_nodes"
    (projectSequence projectRoadNode)
  let projected := putAs "network_edges" projected patch "road_network_edges"
    (projectSequence projectRoadEdge)
  putVisitedNodeCount projected

end CountyFlow.Events
