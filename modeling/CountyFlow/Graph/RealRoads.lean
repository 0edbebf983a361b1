import CountyFlow.Breaker.Circuit
import CountyFlow.Graph.Plans

/-!
# The routing step with real roads

Behind a plan `routing_node` asks `RealRoadRouteService.plan` for the way along real roads.  The service has
a fallback for every failure of its provider, but it checks its nodes first, and what it raises there leaves
the routing step.
-/

namespace CountyFlow.Graph

open CountyFlow.Lib CountyFlow.Road CountyFlow.Breaker

/-! ### The service -/

/-- `RealRoadRouteService`; the provider is asked for the way from the first of the waypoints over the others
to the last one. -/
structure RealRoadRouteService where
  provider : Option (List GeoPoint → ProviderOutcome DrivingRouteResult)
  circuitBreaker : Option CircuitBreaker

namespace RealRoadRouteService

/-- `plan`, with a reading of the clock for the breaker when it is asked and one for when it hears of a
failure. -/
def plan (roads : RealRoadRouteService) (asked failed : ℚ) (nodeIds : List String) :
    Except Raised RealRoadRoute × Option CircuitBreaker :=
  match checkedWaypoints nodeIds with
  | .error e => (.error e, roads.circuitBreaker)
  | .ok waypoints =>
    match roads.provider, roads.circuitBreaker with
    | none, breaker => (.ok (fallbackRoute waypoints "AMap Web Service is not configured."), breaker)
    | some provider, none =>
      match provider waypoints with
      | .returned route => (.ok (Breaker.verifiedRoute waypoints route), none)
      | .providerError _ =>
        (.ok (fallbackRoute waypoints "AMap Web Service is temporarily unavailable."), none)
      | .raised name => (.error (.other name), none)
      | .cancelled => (.error .cancelled, none)
    | some provider, some breaker =>
      let (allowed, breaker) := breaker.allowRequest asked
      if allowed then
        let (result, breaker) := (planRoute waypoints).resume breaker failed (provider waypoints)
        (result, some breaker)
      else (.ok (planRoute waypoints).refused, some breaker)

/-- The contract of a provider: it returns a route, or raises a `ProviderError`. -/
def WithinContract (roads : RealRoadRouteService) : Prop :=
  ∀ provider ∈ roads.provider, ∀ waypoints, (∃ route, provider waypoints = .returned route) ∨
    ∃ timeout, provider waypoints = .providerError timeout

def Mapped (nodeId : String) : Prop := nodeId ∈ nodeCoordinates.map Prod.fst

theorem lookup_isSome {α β : Type*} [BEq α] [LawfulBEq α] {key : α} {l : List (α × β)} :
    (l.lookup key).isSome = true ↔ key ∈ l.map Prod.fst := by
  induction l with
  | nil => simp
  | cons entry l ih =>
    rw [List.lookup_cons, List.map_cons, List.mem_cons]
    cases heq : key == entry.1 with
    | true => exact iff_of_true rfl (.inl (eq_of_beq heq))
    | false => exact ih.trans (or_iff_right (ne_of_beq_false heq)).symm

theorem demoGeoPoint_ok_iff {nodeId : String} : (∃ point, demoGeoPoint nodeId = .ok point) ↔
    Mapped nodeId := by
  unfold Mapped
  rw [← lookup_isSome]
  unfold demoGeoPoint
  cases nodeCoordinates.lookup nodeId with
  | none => simp
  | some place => simp

theorem checkedWaypoints_ok_iff {nodeIds : List String} :
    (∃ waypoints, checkedWaypoints nodeIds = .ok waypoints) ↔
    ¬ nodeIds.length < 2 ∧ ∀ nodeId ∈ nodeIds, Mapped nodeId := by
  simp only [← demoGeoPoint_ok_iff]
  rw [← exists_mapM_eq_ok]
  unfold checkedWaypoints
  split
  · rename_i hshort
    exact iff_of_false (fun h => by obtain ⟨_, h⟩ := h; cases h) fun h => h.1 hshort
  · rename_i hlong
    exact (and_iff_right hlong).symm

theorem plan_returns_iff {roads : RealRoadRouteService} (hcontract : roads.WithinContract) {asked failed : ℚ}
    {nodeIds : List String} : (∃ route, (roads.plan asked failed nodeIds).1 = .ok route) ↔
      ¬ nodeIds.length < 2 ∧ ∀ nodeId ∈ nodeIds, Mapped nodeId := by
  rw [← checkedWaypoints_ok_iff]
  unfold plan
  cases hwaypoints : checkedWaypoints nodeIds with
  | error e => simp
  | ok waypoints =>
    refine iff_of_true ?_ ⟨waypoints, rfl⟩
    cases hprovider : roads.provider with
    | none => exact ⟨_, rfl⟩
    | some provider =>
      cases roads.circuitBreaker with
      | none =>
        rcases hcontract provider hprovider waypoints with ⟨route, hroute⟩ | ⟨timeout, herror⟩
        · simp only [hroute]
          exact ⟨_, rfl⟩
        · simp only [herror]
          exact ⟨_, rfl⟩
      | some breaker =>
        simp only []
        split
        · rcases hcontract provider hprovider waypoints with ⟨route, hroute⟩ | ⟨timeout, herror⟩
          · rw [hroute]
            exact ⟨_, rfl⟩
          · rw [herror]
            exact ⟨_, rfl⟩
        · exact ⟨_, rfl⟩

end RealRoadRouteService

/-! ### The node -/

/-- What leaves `routing_node`: an error of its own, or what the service for real roads raises. -/
inductive RoutingError where
  | node (error : GraphError)
  | roads (error : Raised)
  deriving DecidableEq, Repr

/-- `routing_node` with a service for real roads: the state behind its patch, and `real_road_route`. -/
def routingNodeWithRoads (service : Option RoutingService) (restores : Bool)
    (roads : Option RealRoadRouteService) (asked failed : ℚ) (fuel : ℕ) (s : GraphState) :
    Except RoutingError (GraphState × Option RealRoadRoute) :=
  match service with
  | none => .ok (s, none)
  | some v => do
      let result ← (v.answer restores fuel s).mapError .node
      if (v.planningEnds s).isSome then
        let planned := (s.recommended result).withPlan result
        match result.recommendedPath, roads with
        | some path, some roads => do
            let route ← (roads.plan asked failed path.nodeIds).1.mapError .roads
            return (planned, some route)
        | _, _ => return (planned, none)
      else return (s.recommended result, none)

theorem mapError_eq_ok {ε ε' α : Type} {x : Except ε α} {f : ε → ε'} {a : α} :
    x.mapError f = .ok a ↔ x = .ok a := by
  cases x with
  | error e => exact iff_of_false (fun h => by cases h) fun h => by cases h
  | ok b => exact ⟨fun h => congrArg Except.ok (Except.ok.inj h),
      fun h => congrArg Except.ok (Except.ok.inj h)⟩

def GraphState.startNodeId (s : GraphState) (originNodeId : String) : String :=
  (Dispatch.text s.incidentNodeId).getD originNodeId

section

variable {v : RoutingService} {restores : Bool} {fuel : ℕ} {s : GraphState} {origin destination : String}
  {result : RoutingResult}

theorem answer_path (hends : v.planningEnds s = some (origin, destination))
    (hanswer : v.answer restores fuel s = .ok result) (hrouted : result.requiresManualReview = false) :
    ∃ path, result.recommendedPath = some path ∧
      (path.nodeIds.length < 2 ↔ s.startNodeId origin = destination) := by
  obtain ⟨context, status, hcontext, -, hplan⟩ := RoutingService.answer_planned hends hanswer
  have hcontext' : context.startNodeId = s.startNodeId origin ∧ context.destinationNodeId = destination := by
    unfold GraphState.planningContext at hcontext
    split at hcontext
    · cases hcontext
    · cases hcontext
      exact ⟨rfl, rfl⟩
  rcases RoutingService.plan_ok hplan with ⟨hdeclined, -⟩ | ⟨-, snapshot, path, -, -, hplanned⟩
  · rw [hdeclined.review] at hrouted
    cases hrouted
  · obtain ⟨objective, hfound⟩ := hplanned.found
    rw [← hcontext'.1, ← hcontext'.2]
    exact ⟨path, hplanned.recommendedPath, find_short_iff hfound⟩

/-- **When the routing step returns** for a route that has been planned: it must not start where it ends, and
each node of its path must have coordinates. -/
theorem routing_returns_iff (roads : RealRoadRouteService) (hcontract : roads.WithinContract)
    (asked failed : ℚ) (hends : v.planningEnds s = some (origin, destination))
    (hanswer : v.answer restores fuel s = .ok result) (hrouted : result.requiresManualReview = false) :
    (∃ patch, routingNodeWithRoads (some v) restores (some roads) asked failed fuel s = .ok patch) ↔
      s.startNodeId origin ≠ destination ∧
        ∀ path ∈ result.recommendedPath, ∀ nodeId ∈ path.nodeIds, RealRoadRouteService.Mapped nodeId := by
  obtain ⟨path, hpath, hshort⟩ := answer_path hends hanswer hrouted
  have hreturns := @RealRoadRouteService.plan_returns_iff roads hcontract asked failed path.nodeIds
  rw [hshort] at hreturns
  simp only [hpath, Option.mem_some_iff, forall_eq']
  rw [← hreturns]
  have hnode : routingNodeWithRoads (some v) restores (some roads) asked failed fuel s =
      (roads.plan asked failed path.nodeIds).1.mapError .roads >>= fun route =>
        .ok ((s.recommended result).withPlan result, some route) := by
    unfold routingNodeWithRoads
    simp only [hanswer, hends]
    show (match result.recommendedPath, some roads with | some path, some roads => _ | _, _ => _) = _
    rw [hpath]
    rfl
  rw [hnode]
  constructor
  · intro h
    obtain ⟨patch, h⟩ := h
    obtain ⟨route, hroute, -⟩ := bind_eq_ok.mp h
    exact ⟨route, mapError_eq_ok.mp hroute⟩
  · intro h
    obtain ⟨route, hroute⟩ := h
    exact ⟨_, bind_eq_ok.mpr ⟨route, mapError_eq_ok.mpr hroute, rfl⟩⟩

end

/-! ### An incident at the destination -/

/-- A road between two nodes with coordinates. -/
def stationRoad : RoadNetworkSnapshot where
  version := 1
  nodes := ["N01", "N06"]
  edges := [⟨"E01", "N01", "N06", 10, 20, .low, .open, 1, 5, true⟩]
  edgeIds_nodup := by simp

/-- A service that plans over the road. -/
def stationRouting : RoutingService where
  routeProvider := none
  memoryAdoptionThreshold := 4 / 5
  roadNetwork := some stationRoad
  hasPathFinder := true
  sha256 := fun text => if text = "E01"
    then "e7e7dd241b31082d328fe29439a320dac14696e5f2b7c9f42c745ba274555d8b"
    else "e3b0c44298fc1c149afbf4c8996fb92427ae41e4649b934ca495991b7852b855"

def stoppedTask (incidentNodeId : String) : GraphState where
  taskId := "T-1"
  orderId := 7
  driverId := "D-001"
  routeId := "xinping-road"
  anomalyType := "WEATHER"
  anomalyDescription := "暴雨"
  vehicleWeightTons := some 2
  capacityState := some ⟨true, true, 1 / 2, none, .available, "low", none, "static"⟩
  originNodeId := some "N01"
  destinationNodeId := some "N06"
  incidentNodeId := some incidentNodeId

/-- A service without a provider, as it is built without a key. -/
def unkeyedRoads : RealRoadRouteService := ⟨none, some (.new 3 30)⟩

theorem unkeyedRoads_withinContract : unkeyedRoads.WithinContract := by
  intro provider hprovider
  cases hprovider

theorem stopped_planned (incidentNodeId : String) (hnode : incidentNodeId = "N01" ∨ incidentNodeId = "N06") :
    ∃ result, stationRouting.answer false 8 (stoppedTask incidentNodeId) = .ok result ∧
      result.requiresManualReview = false ∧
      ∀ path ∈ result.recommendedPath, ∀ nodeId ∈ path.nodeIds, nodeId ∈ ["N01", "N06"] := by
  have hplan : ∀ node ∈ ["N01", "N06"],
      ((stationRouting.answer false 8 (stoppedTask node)).toOption.map fun result =>
        (result.requiresManualReview, result.recommendedPath.map PathResult.nodeIds)) =
          some (false, some (if node = "N01" then ["N01", "N06"] else ["N06"])) := by
    decide +kernel
  obtain ⟨result, hresult, heq⟩ := Option.map_eq_some_iff.mp (hplan incidentNodeId (by simpa using hnode))
  obtain ⟨hreview, hpath⟩ := Prod.mk.inj heq
  refine ⟨result, toOption_eq_some.mp hresult, hreview, fun path hsome nodeId hmem => ?_⟩
  rw [Option.mem_def.mp hsome, Option.map_some, Option.some.injEq] at hpath
  rw [hpath] at hmem
  split at hmem
  · exact hmem
  · exact List.mem_cons_of_mem _ hmem

/-- From the origin the step returns. -/
theorem routing_returns_iff_origin : ∃ patch, routingNodeWithRoads (some stationRouting) false
    (some unkeyedRoads) 0 0 8 (stoppedTask "N01") = .ok patch := by
  obtain ⟨result, hanswer, hreview, hnodes⟩ := stopped_planned "N01" (.inl rfl)
  have hends : stationRouting.planningEnds (stoppedTask "N01") = some ("N01", "N06") := rfl
  refine (routing_returns_iff unkeyedRoads unkeyedRoads_withinContract 0 0 hends hanswer hreview).mpr ⟨?_, ?_⟩
  · decide
  · intro path hpath nodeId hmem
    have hmapped : ∀ node ∈ ["N01", "N06"], RealRoadRouteService.Mapped node := by
      unfold RealRoadRouteService.Mapped
      decide
    exact hmapped nodeId (hnodes path hpath nodeId hmem)

/-- **Counterexample**: at the destination the path is one node, a route has been planned, and the step raises
what the service for real roads raises. -/
theorem incident_at_destination_raises :
    (∃ result, stationRouting.answer false 8 (stoppedTask "N06") = .ok result ∧
      result.requiresManualReview = false) ∧ unkeyedRoads.WithinContract ∧
      ¬ ∃ patch, routingNodeWithRoads (some stationRouting) false (some unkeyedRoads) 0 0 8
        (stoppedTask "N06") = .ok patch := by
  obtain ⟨result, hanswer, hreview, -⟩ := stopped_planned "N06" (.inr rfl)
  refine ⟨⟨result, hanswer, hreview⟩, unkeyedRoads_withinContract, ?_⟩
  have hraises : (routingNodeWithRoads (some stationRouting) false (some unkeyedRoads) 0 0 8
      (stoppedTask "N06")).isOk = false := by decide +kernel
  intro h
  obtain ⟨patch, hpatch⟩ := h
  rw [hpatch] at hraises
  cases hraises

end CountyFlow.Graph
