import CountyFlow.Evidence.Produced

/-!
# Real roads

`RealRoadRouteService.plan` maps the nodes of a path to coordinates and asks the map provider for the
way between them; without an answer the coordinates themselves are the route.
-/

namespace CountyFlow.Evidence

open CountyFlow.Core

structure GeoPoint where
  nodeId : Option String
  longitude : Decimal
  latitude : Decimal
  deriving DecidableEq, Repr

def mappingVersion : String := "DEMO_AMAP_V1"

/-- `_NODE_COORDINATES`: longitude and latitude in millionths of a degree. -/
def nodeCoordinates : List (String × ℕ × ℕ) :=
  [("N01", 103044800, 25226500), ("N02", 103032000, 25232000), ("N03", 103057000, 25239000),
    ("N04", 103079000, 25246000), ("N05", 103104000, 25252000), ("N06", 103135000, 25261000),
    ("N07", 103018000, 25207000), ("N08", 103062000, 25198000), ("N09", 103105000, 25214000),
    ("N10", 103025000, 25267000), ("N11", 103013000, 25303000), ("N12", 102973000, 25247000),
    ("N13", 103072000, 25158000), ("N14", 102991000, 25217000), ("N15", 103077000, 25228000),
    ("N16", 102997000, 25279000), ("N17", 103132000, 25293000), ("N18", 103151000, 25204000),
    ("N19", 103051000, 25220000), ("N20", 103092000, 25235000), ("N21", 103117000, 25225000),
    ("N22", 103069000, 25231000)]

/-- `demo_geo_point`; `none` is the `ValueError` of a node without coordinates. -/
def demoGeoPoint (nodeId : String) : Option GeoPoint :=
  (nodeCoordinates.lookup nodeId).map fun place =>
    ⟨some nodeId, ⟨false, place.1, -6⟩, ⟨false, place.2, -6⟩⟩

/-- `DrivingRouteResult`; the points of a provider's polyline are coordinates without a node. -/
structure DrivingRouteResult where
  distanceMeters : ℤ
  durationSeconds : ℤ
  polyline : List (Decimal × Decimal)
  deriving DecidableEq, Repr

/-- What the service meets on its way to the provider. -/
inductive DrivingAnswer where
  | unconfigured
  | breakerOpen
  | providerError
  | route (result : DrivingRouteResult)
  deriving DecidableEq, Repr

structure RealRoadRoute where
  provider : String
  source : String
  status : String
  coordinateSystem : String
  mappingVersion : String
  distanceMeters : Option ℤ
  durationSeconds : Option ℤ
  waypoints : List GeoPoint
  polyline : List GeoPoint
  fallbackReason : Option String
  deriving DecidableEq, Repr

namespace RealRoadRoute

def fallback (waypoints : List GeoPoint) (reason : String) : RealRoadRoute where
  provider := "AMAP"
  source := "CLIENT_WAYPOINT_FALLBACK"
  status := "CLIENT_MATCH_REQUIRED"
  coordinateSystem := "GCJ02"
  mappingVersion := Evidence.mappingVersion
  distanceMeters := none
  durationSeconds := none
  waypoints := waypoints
  polyline := waypoints
  fallbackReason := some reason

/-- `plan`; `none` is a `ValueError`. -/
def plan (answer : DrivingAnswer) (nodeIds : List String) : Option RealRoadRoute :=
  if nodeIds.length < 2 then none
  else (nodeIds.mapM demoGeoPoint).map fun waypoints =>
    match answer with
    | .unconfigured => fallback waypoints "AMap Web Service is not configured."
    | .breakerOpen | .providerError =>
      fallback waypoints "AMap Web Service is temporarily unavailable."
    | .route result => {
        provider := "AMAP"
        source := "AMAP_WEB_SERVICE"
        status := "VERIFIED"
        coordinateSystem := "GCJ02"
        mappingVersion := Evidence.mappingVersion
        distanceMeters := some result.distanceMeters
        durationSeconds := some result.durationSeconds
        waypoints := waypoints
        polyline := result.polyline.map fun point => ⟨none, point.1, point.2⟩
        fallbackReason := none }

/-- What is known of a route of the service. -/
structure Planned (route : RealRoadRoute) : Prop where
  provider : route.provider = "AMAP"
  source : route.source ∈ ["AMAP_WEB_SERVICE", "CLIENT_WAYPOINT_FALLBACK"]
  status : route.status ∈ ["VERIFIED", "CLIENT_MATCH_REQUIRED"]
  coordinateSystem : route.coordinateSystem = "GCJ02"
  mappingVersion : route.mappingVersion = Evidence.mappingVersion
  waypoints : ∀ point ∈ route.waypoints, point.nodeId ≠ some ""
  polyline : ∀ point ∈ route.polyline, point.nodeId ≠ some ""
  fallbackReason : route.fallbackReason ≠ some ""

end RealRoadRoute

theorem nodeId_of_demoGeoPoint {nodeId : String} {point : GeoPoint}
    (h : demoGeoPoint nodeId = some point) : point.nodeId ≠ some "" := by
  obtain ⟨place, hplace, rfl⟩ := Option.map_eq_some_iff.mp h
  intro hempty
  have hname : nodeId = "" := Option.some.inj hempty
  subst hname
  have hnone : nodeCoordinates.lookup "" = none := by decide
  rw [hnone] at hplace
  cases hplace

variable {nodeIds : List String}

theorem nodeId_of_mapM {points : List GeoPoint}
    (h : nodeIds.mapM demoGeoPoint = some points) : ∀ point ∈ points, point.nodeId ≠ some "" := by
  induction nodeIds generalizing points with
  | nil =>
    cases h
    simp
  | cons nodeId nodeIds ih =>
    simp only [List.mapM_cons, Option.bind_eq_bind, Option.bind_eq_some_iff] at h
    obtain ⟨first, hfirst, rest, hrest, hpoints⟩ := h
    cases hpoints
    intro point hpoint
    rcases List.mem_cons.mp hpoint with rfl | hmem
    · exact nodeId_of_demoGeoPoint hfirst
    · exact ih hrest point hmem

theorem RealRoadRoute.plan_planned {answer : DrivingAnswer} {route : RealRoadRoute}
    (h : plan answer nodeIds = some route) : route.Planned := by
  simp only [plan, Option.ite_none_left_eq_some] at h
  obtain ⟨waypoints, hwaypoints, rfl⟩ := Option.map_eq_some_iff.mp h.2
  have hpoints := nodeId_of_mapM hwaypoints
  cases answer with
  | route result =>
    refine ⟨rfl, ?_, ?_, rfl, rfl, hpoints, ?_, ?_⟩
    · simp
    · simp
    · intro point hpoint
      obtain ⟨place, -, rfl⟩ := List.mem_map.mp hpoint
      simp
    · simp
  | _ => exact ⟨rfl, by simp [fallback], by simp [fallback], rfl, rfl, hpoints, hpoints, by simp [fallback]⟩

def geoPointToState (point : GeoPoint) : Value :=
  .dict [
    ("node_id", ofText point.nodeId),
    ("longitude", .str point.longitude.fixed),
    ("latitude", .str point.latitude.fixed)]

def realRoadRouteToState (route : RealRoadRoute) : Value :=
  .dict [
    ("provider", .str route.provider),
    ("source", .str route.source),
    ("status", .str route.status),
    ("coordinate_system", .str route.coordinateSystem),
    ("mapping_version", .str route.mappingVersion),
    ("distance_meters", ofInt route.distanceMeters),
    ("duration_seconds", ofInt route.durationSeconds),
    ("waypoints", .list (route.waypoints.map geoPointToState)),
    ("polyline", .list (route.polyline.map geoPointToState)),
    ("fallback_reason", ofText route.fallbackReason)]

end CountyFlow.Evidence
