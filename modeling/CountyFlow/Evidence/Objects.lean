import CountyFlow.Evidence.Nodes
import CountyFlow.Evidence.Reader

/-!
# One object, written and read back

For every kind of object in the evidence: when the reader accepts what the writer made of it, and when
what it reads shows what the state holds.
-/

namespace CountyFlow.Evidence

open CountyFlow.Core

/-! ### Texts and numbers -/

@[simp] theorem nonEmptyText_none : nonEmptyText .none = .none := rfl

@[simp] theorem integer_int (z : ℤ) : integer (.int z) = .int z := rfl

@[simp] theorem integer_ofInt (o : Option ℤ) : integer (ofInt o) = ofInt o := by
  cases o <;> rfl

@[simp] theorem numberText_str (s : String) : numberText (.str s) = .str s := rfl

@[simp] theorem numberText_ofText (o : Option String) : numberText (ofText o) = ofText o := by
  cases o <;> rfl

@[simp] theorem numberText_ofFixed (d : Option Decimal) : numberText (ofFixed d) = ofFixed d :=
  numberText_ofText _

@[simp] theorem stringList_texts (items : List String) : stringList (texts items) = texts items := by
  unfold stringList texts
  simp only [Value.items_list, Value.list.injEq, List.filter_eq_self]
  intro value hvalue
  obtain ⟨s, -, rfl⟩ := List.mem_map.mp hvalue
  rfl

@[simp] theorem nonEmptyText_str_eq (s : String) : nonEmptyText (.str s) = .str s ↔ s ≠ "" := by
  by_cases h : s = "" <;> simp [nonEmptyText, h]

@[simp] theorem nonEmptyText_ofText_eq (o : Option String) :
    nonEmptyText (ofText o) = ofText o ↔ o ≠ some "" := by
  cases o with
  | none => simp [ofText]
  | some s => simp [ofText]

@[simp] theorem ofText_eq_str (o : Option String) (s : String) : ofText o = .str s ↔ o = some s := by
  cases o <;> simp [ofText]

@[simp] theorem ofText_eq_none (o : Option String) : ofText o = .none ↔ o = none := by
  cases o <;> simp [ofText]

@[simp] theorem ofInt_eq_none (o : Option ℤ) : ofInt o = .none ↔ o = none := by
  cases o <;> simp [ofInt]

/-! ### What the schemas accept of them -/

@[simp] theorem validate_str_str (s : String) : Schema.validate .str (.str s) = some (.str s) := rfl

@[simp] theorem validate_int_int (z : ℤ) : Schema.validate .int (.int z) = some (.int z) := rfl

@[simp] theorem validate_bool_bool (b : Bool) : Schema.validate .bool (.bool b) = some (.bool b) :=
  rfl

@[simp] theorem validate_texts (items : List String) :
    Schema.validate (.list .str) (texts items) = some (texts items) := by
  have hitems : (items.map Value.str).mapM (Schema.validate .str) = some (items.map Value.str) := by
    induction items with
    | nil => rfl
    | cons s items ih => simp only [List.map_cons, List.mapM_cons, validate_str_str, ih,
        Option.bind_eq_bind, Option.bind_some, Option.pure_def]
  rw [texts, Schema.validate_list, hitems, Option.map_some]

@[simp] theorem validate_optional_none (type : Schema) :
    Schema.validate (.optional type) .none = some .none := by
  simp [Schema.validate]

@[simp] theorem validate_optional_dict (type : Schema) (entries : State) :
    Schema.validate (.optional type) (.dict entries) = type.validate (.dict entries) := by
  simp [Schema.validate]

@[simp] theorem flag_bool (b : Bool) : flag (.bool b) = .bool b := rfl

@[simp] theorem isTrue_bool (b : Bool) : isTrue (.bool b) = .bool b := by
  cases b <;> rfl

@[simp] theorem isSome_validate_nonEmptyText_str (s : String) :
    (Schema.validate .str (nonEmptyText (.str s))).isSome = true ↔ s ≠ "" := by
  by_cases h : s = "" <;> simp [nonEmptyText, h, Schema.validate]

@[simp] theorem isSome_validate_nonEmptyText_ofText (o : Option String) :
    (Schema.validate .str (nonEmptyText (ofText o))).isSome = true ↔ o ≠ none ∧ o ≠ some "" := by
  cases o with
  | none => simp [ofText, Schema.validate]
  | some s => simp [ofText]

@[simp] theorem isSome_validate_optional_nonEmptyText (value : Value) :
    (Schema.validate (.optional .str) (nonEmptyText value)).isSome = true := by
  cases value with
  | str s => by_cases h : s = "" <;> simp [nonEmptyText, h, Schema.validate]
  | _ => rfl

@[simp] theorem isSome_validate_ofText (o : Option String) :
    (Schema.validate .str (ofText o)).isSome = true ↔ o ≠ none := by
  cases o <;> simp [ofText, Schema.validate]

@[simp] theorem validate_optional_ofText (o : Option String) :
    Schema.validate (.optional .str) (ofText o) = some (ofText o) := by
  cases o <;> simp [ofText, Schema.validate]

@[simp] theorem validate_optional_str (s : String) :
    Schema.validate (.optional .str) (.str s) = some (.str s) := validate_optional_ofText (some s)

@[simp] theorem validate_optional_ofFixed (d : Option Decimal) :
    Schema.validate (.optional .str) (ofFixed d) = some (ofFixed d) := validate_optional_ofText _

@[simp] theorem isSome_validate_optional_bool (b : Bool) :
    (Schema.validate (.optional .bool) (.bool b)).isSome = true := by
  simp [Schema.validate]

@[simp] theorem isSome_validate_ofInt (o : Option ℤ) :
    (Schema.validate .int (ofInt o)).isSome = true ↔ o ≠ none := by
  cases o <;> simp [ofInt, Schema.validate]

@[simp] theorem validate_optional_ofInt (o : Option ℤ) :
    Schema.validate (.optional .int) (ofInt o) = some (ofInt o) := by
  cases o <;> simp [ofInt, Schema.validate]

theorem isSome_field {fields : List (String × Schema × Option Value)} {keys : List String} {entries : State}
    (h : (readModel (.model fields) keys (.dict entries)).isSome = true)
    {field : String × Schema × Option Value} (hfield : field ∈ fields) (hkey : field.1 ∈ keys) {value : Value}
    (hvalue : entries.lookup field.1 = some value) : (field.2.1.validate value).isSome = true := by
  simp only [readModel, Schema.isSome_validate_model, Bool.and_eq_true] at h
  have haccepted := List.all_eq_true.mp h.2 field hfield
  rw [State.lookup_pick, if_pos hkey, hvalue] at haccepted
  exact haccepted

/-! ### Paths -/

attribute [local simp] required orNone orEmpty Schema.isSome_validate_model State.pick Schema.names
  List.lookup_cons text State.get_cons Schema.view Schema.viewFields

theorem objectiveValue_ne_empty (objective : Road.RouteObjective) : objectiveValue objective ≠ "" := by
  cases objective <;> decide

theorem isSome_readPath (path : Option PathResult) :
    (readPath (compactPath (pathToState path))).isSome = true := by
  cases path with
  | none => rfl
  | some path =>
    simp [readPath, compactPath, pathToState, pathEntries, readModel, pathResponse,
      objectiveValue_ne_empty]

theorem view_compactPath (path : Option PathResult) :
    pathResponse.view (compactPath (pathToState path)) = pathResponse.view (pathToState path) := by
  cases path with
  | none => rfl
  | some path =>
    simp [compactPath, pathToState, pathEntries, pathResponse, objectiveValue_ne_empty]

theorem isSome_readPath_recommended (path : Option PathResult) :
    (readPath (compactPath (recommendedToState path))).isSome = true := by
  cases path with
  | none => rfl
  | some path =>
    simp [readPath, compactPath, recommendedToState, pathEntries, State.set, readModel, pathResponse,
      objectiveValue_ne_empty]

theorem view_compactPath_recommended (path : Option PathResult) :
    pathResponse.view (compactPath (recommendedToState path)) =
      pathResponse.view (recommendedToState path) := by
  cases path with
  | none => rfl
  | some path =>
    simp [compactPath, recommendedToState, pathEntries, State.set, pathResponse,
      objectiveValue_ne_empty]

/-! ### Score components -/

theorem isSome_validate_routeComponents (components : Option RouteScoreComponents) :
    (Schema.validate (.optional routeScoreComponentsResponse)
      (compactComponents routeComponentKeys (routeComponentsToState components))).isSome = true := by
  cases components with
  | none => rfl
  | some components =>
    simp [routeScoreComponentsResponse, compactComponents, routeComponentKeys,
      routeComponentsToState]

theorem view_routeComponents (components : Option RouteScoreComponents) :
    routeScoreComponentsResponse.view
        (compactComponents routeComponentKeys (routeComponentsToState components)) =
      routeScoreComponentsResponse.view (routeComponentsToState components) := by
  cases components with
  | none => rfl
  | some components =>
    simp [routeScoreComponentsResponse, compactComponents, routeComponentKeys,
      routeComponentsToState]

theorem isSome_validate_fleetComponents (components : Option FleetScoreComponents) :
    (Schema.validate (.optional fleetScoreComponentsResponse)
      (compactComponents fleetComponentKeys (fleetComponentsToState components))).isSome = true := by
  cases components with
  | none => rfl
  | some components =>
    simp [fleetScoreComponentsResponse, compactComponents, fleetComponentKeys,
      fleetComponentsToState]

theorem view_fleetComponents (components : Option FleetScoreComponents) :
    fleetScoreComponentsResponse.view
        (compactComponents fleetComponentKeys (fleetComponentsToState components)) =
      fleetScoreComponentsResponse.view (fleetComponentsToState components) := by
  cases components with
  | none => rfl
  | some components =>
    simp [fleetScoreComponentsResponse, compactComponents, fleetComponentKeys,
      fleetComponentsToState]

/-! ### Candidate routes -/

def routeTextKeys : List String :=
  ["route_id", "route_name", "objective", "risk_level", "reason", "scoring_formula",
    "algorithm_version"]

/-- The keys that a provider's route may leave out and a stored one may not. -/
def routeRequiredKeys : List String :=
  ["objective", "risk_cost", "visited_node_count", "scoring_formula"]

/-- A candidate route whose texts are not empty, with what a stored route must have. -/
def RouteComplete (route : Value) : Prop :=
  (∀ key ∈ routeTextKeys, route.get key ≠ .str "") ∧
    ∀ key ∈ routeRequiredKeys, route.get key ≠ .none

instance (route : Value) : Decidable (RouteComplete route) :=
  inferInstanceAs (Decidable (_ ∧ _))

theorem route_kept (candidate : RouteCandidate) :
    ((readModel routeCandidateResponse routeCandidateKeys
        (compactRouteCandidate (routeCandidateToState candidate))).isSome = true ∧
      routeCandidateResponse.view (compactRouteCandidate (routeCandidateToState candidate)) =
        routeCandidateResponse.view (routeCandidateToState candidate)) ↔
      RouteComplete (routeCandidateToState candidate) := by
  simp [RouteComplete, routeTextKeys, routeRequiredKeys, readModel, routeCandidateResponse,
    routeCandidateKeys, compactRouteCandidate, routeCandidateToState,
    isSome_validate_routeComponents, view_routeComponents]
  tauto

/-! ### Vehicles -/

def vehicleTextKeys : List String :=
  ["vehicle_id", "driver_id", "vehicle_status", "driver_status", "cargo_capability",
    "scoring_formula"]

theorem compactVehicleCandidate_eq (candidate : Value) :
    compactVehicleCandidate candidate = .dict (selectedEntries candidate ++ [
      ("gross_weight_tons", numberText (candidate.get "gross_weight_tons")),
      ("pickup_route", compactPath (candidate.get "pickup_route")),
      ("pickup_distance_km", numberText (candidate.get "pickup_distance_km")),
      ("pickup_eta_minutes", integer (candidate.get "pickup_eta_minutes")),
      ("scoring_formula", text candidate "scoring_formula")]) := by
  simp [compactVehicleCandidate, selectedEntries, State.update, State.set]

theorem isSome_validate_optional_path (path : Option PathResult) :
    (Schema.validate (.optional pathResponse) (compactPath (pathToState path))).isSome = true := by
  cases path with
  | none => rfl
  | some path =>
    simp [compactPath, pathToState, pathEntries, pathResponse, objectiveValue_ne_empty]

theorem isSome_read_vehicle (candidate : VehicleCandidate) :
    (readModel vehicleCandidateResponse vehicleCandidateKeys
      (compactVehicleCandidate (candidateToState candidate))).isSome = true ↔
      candidate.vehicleId ≠ "" := by
  rw [compactVehicleCandidate_eq]
  simp [readModel, vehicleCandidateResponse, vehicleCandidateKeys, selectedEntries,
    candidateToState, isSome_validate_fleetComponents, isSome_validate_optional_path]

theorem view_vehicle (candidate : VehicleCandidate) :
    vehicleCandidateResponse.view (compactVehicleCandidate (candidateToState candidate)) =
        vehicleCandidateResponse.view (candidateToState candidate) ↔
      ∀ key ∈ vehicleTextKeys, (candidateToState candidate).get key ≠ .str "" := by
  rw [compactVehicleCandidate_eq]
  simp [vehicleTextKeys, vehicleCandidateResponse, selectedEntries, candidateToState,
    view_fleetComponents, view_compactPath]

/-! ### The road network -/

def nodeTextKeys : List String := ["node_id", "name", "node_type"]

def edgeTextKeys : List String :=
  ["edge_id", "name", "from_node_id", "to_node_id", "road_level", "risk_level", "status"]

theorem isSome_read_node (node : RoadNodeSnapshot) :
    (readModel roadNodeResponse ["node_id", "name", "x_km", "y_km", "node_type"]
      (compactNetworkNode (nodeToState node))).isSome = true ↔
      ∀ key ∈ nodeTextKeys, (nodeToState node).get key ≠ .str "" := by
  simp [nodeTextKeys, readModel, roadNodeResponse, compactNetworkNode, nodeToState]

theorem isSome_read_edge (edge : RoadEdgeSnapshot) :
    (readModel roadEdgeResponse
      ["edge_id", "name", "from_node_id", "to_node_id", "distance_km", "base_minutes", "road_level",
        "risk_level", "status", "congestion_factor", "weight_limit_tons", "bidirectional", "version"]
      (compactNetworkEdge (edgeToState edge))).isSome = true ↔
      ∀ key ∈ edgeTextKeys, (edgeToState edge).get key ≠ .str "" := by
  simp [edgeTextKeys, readModel, roadEdgeResponse, compactNetworkEdge, edgeToState]

/-! ### Real roads -/

theorem validate_compactGeoPoint {point : GeoPoint} (h : point.nodeId ≠ some "") :
    geoPointResponse.validate (compactGeoPoint (geoPointToState point)) =
      some (geoPointToState point) := by
  have hlongitude := point.longitude.fixed_ne_empty
  have hlatitude := point.latitude.fixed_ne_empty
  cases hname : point.nodeId with
  | none => simp [geoPointResponse, compactGeoPoint, geoPointToState, hname, ofText, nonEmptyText,
      Schema.validate, Schema.validateFields, hlongitude, hlatitude]
  | some name =>
    have hne : name ≠ "" := by
      rintro rfl
      exact h hname
    simp [geoPointResponse, compactGeoPoint, geoPointToState, hname, ofText, nonEmptyText,
      Schema.validate, Schema.validateFields, hlongitude, hlatitude, hne]

theorem compactItems_map {α : Type} (compact : Value → Value) {toState : α → Value}
    (hdict : ∀ x, (toState x).isDict = true) (objects : List α) :
    compactItems compact (.list (objects.map toState)) =
      .list (objects.map fun x => compact (toState x)) := by
  have hfilter : (objects.map toState).filter Value.isDict = objects.map toState := by
    rw [List.filter_eq_self]
    intro value hvalue
    obtain ⟨x, -, rfl⟩ := List.mem_map.mp hvalue
    exact hdict x
  rw [compactItems, Value.items_list, hfilter, List.map_map]
  rfl

variable {points : List GeoPoint}

theorem validate_points (h : ∀ point ∈ points, point.nodeId ≠ some "") :
    Schema.validate (.list geoPointResponse)
        (compactItems compactGeoPoint (.list (points.map geoPointToState))) =
      some (.list (points.map geoPointToState)) := by
  rw [compactItems_map compactGeoPoint (fun _ => rfl), Schema.validate_list,
    Schema.mapM_map_some fun point hpoint => validate_compactGeoPoint (h point hpoint)]
  rfl

theorem geoPointResponse_wellFormed : geoPointResponse.wellFormed = true := by decide

theorem view_points (h : ∀ point ∈ points, point.nodeId ≠ some "") :
    Schema.view (.list geoPointResponse)
        (compactItems compactGeoPoint (.list (points.map geoPointToState))) =
      Schema.view (.list geoPointResponse) (.list (points.map geoPointToState)) :=
  (Schema.view_validate (.list geoPointResponse) geoPointResponse_wellFormed
    (validate_points h)).symm

theorem text_of_mem {s : String} {options : List String} (hs : s ∈ options)
    (hoptions : "" ∉ options) : nonEmptyText (.str s) = .str s := by
  rw [nonEmptyText_str_eq]
  rintro rfl
  exact hoptions hs

variable {route : RealRoadRoute}

theorem isSome_readRealRoad (h : route.Planned) :
    (readRealRoadRoute (compactRealRoadRoute (realRoadRouteToState route))).isSome = true := by
  have hsource := text_of_mem h.source (by decide)
  have hstatus := text_of_mem h.status (by decide)
  have hprovider : nonEmptyText (.str "AMAP") = .str "AMAP" := by decide
  have hcoordinates : nonEmptyText (.str "GCJ02") = .str "GCJ02" := by decide
  have hversion : (Schema.validate .str (nonEmptyText (.str mappingVersion))).isSome = true := by
    decide
  have hsource' := (Schema.validate_literal _ route.source).trans (if_pos h.source)
  have hstatus' := (Schema.validate_literal _ route.status).trans (if_pos h.status)
  simp [readRealRoadRoute, compactRealRoadRoute, realRoadRouteToState, realRoadRouteResponse,
    h.provider, h.coordinateSystem, h.mappingVersion, hprovider, hcoordinates, hversion, hsource,
    hstatus, hsource', hstatus', Schema.validate_literal, validate_points h.waypoints,
    validate_points h.polyline]

theorem view_realRoad (h : route.Planned) :
    realRoadRouteResponse.view (compactRealRoadRoute (realRoadRouteToState route)) =
      realRoadRouteResponse.view (realRoadRouteToState route) := by
  have hsource := text_of_mem h.source (by decide)
  have hstatus := text_of_mem h.status (by decide)
  have hversion : mappingVersion ≠ "" := by decide
  have hwaypoints := view_points h.waypoints
  have hpolyline := view_points h.polyline
  simp only [Schema.view] at hwaypoints hpolyline
  simp [compactRealRoadRoute, realRoadRouteToState, realRoadRouteResponse, h.provider,
    h.coordinateSystem, h.mappingVersion, h.fallbackReason, hversion, hsource, hstatus, hwaypoints,
    hpolyline]

end CountyFlow.Evidence
