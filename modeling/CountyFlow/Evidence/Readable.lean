import CountyFlow.Evidence.Fleet

/-!
# Stored evidence is readable

What the reader answers shows what the state holds exactly where the state is complete: no empty text, and
every candidate route with its objective, its cost, its count of nodes and its formula.
-/

namespace CountyFlow.Evidence

open CountyFlow.Core

/-- What the reader answers shows what the state holds: the identity of the reserved candidate, the
candidates, the paths and the deltas. -/
structure Faithful (s : State) (candidate allocation plan : Value) : Prop where
  targetVehicle : allocation.get "target_vehicle_id" = candidate.get "vehicle_id"
  targetDriver : allocation.get "target_driver_id" = candidate.get "driver_id"
  candidates : Schema.view (.list vehicleCandidateResponse) (allocation.get "candidate_vehicles") =
    Schema.view (.list vehicleCandidateResponse) (s.get "candidate_vehicles")
  pickup_reserved : candidate ≠ .none →
    pathResponse.view (allocation.get "pickup_route") =
      pathResponse.view (candidate.get "pickup_route")
  pickup_first : (attempts (dispatchCall s)).head? = some candidate →
    pathResponse.view (allocation.get "pickup_route") = pathResponse.view (s.get "pickup_route")
  routes : Schema.view (.list routeCandidateResponse) (plan.get "candidate_routes") =
    Schema.view (.list routeCandidateResponse) (s.get "candidate_routes")
  originalPath : pathResponse.view (plan.get "original_path") =
    pathResponse.view (s.get "original_path")
  recommendedPath : pathResponse.view (plan.get "recommended_path") =
    pathResponse.view (s.get "recommended_path")
  realRoadRoute : realRoadRouteResponse.view (plan.get "real_road_route") =
    realRoadRouteResponse.view (s.get "real_road_route")
  distanceDeltaKm : plan.get "distance_delta_km" = s.get "distance_delta_km"
  etaDeltaMinutes : plan.get "eta_delta_minutes" = s.get "eta_delta_minutes"

/-- The evidence of a state holds no empty text, and every candidate route has what a stored route
must have. -/
structure Complete (s : State) : Prop where
  vehicles : ∀ vehicle ∈ (s.get "candidate_vehicles").items, ∀ key ∈ vehicleTextKeys,
    vehicle.get key ≠ .str ""
  routes : ∀ route ∈ (s.get "candidate_routes").items, RouteComplete route
  nodes : ∀ node ∈ (s.get "road_network_nodes").items, ∀ key ∈ nodeTextKeys, node.get key ≠ .str ""
  edges : ∀ edge ∈ (s.get "road_network_edges").items, ∀ key ∈ edgeTextKeys, edge.get key ≠ .str ""

/-! ### Lists of models -/

theorem items_getOr (s : State) (key : String) : (s.getOr key (.list [])).items = (s.get key).items := by
  unfold State.getOr State.get
  cases s.lookup key <;> rfl

theorem view_list_getOr (type : Schema) (s : State) (key : String) :
    Schema.view (.list type) (s.getOr key (.list [])) = Schema.view (.list type) (s.get key) := by
  simp only [Schema.view, items_getOr]

variable {fields : List (String × Schema × Option Value)} {keys : List String} {value out : Value}

theorem readModel_spec (hw : Schema.wellFormed (.model fields) = true)
    (hkeys : ∀ name ∈ Schema.names fields, name ∈ keys)
    (h : readModel (.model fields) keys value = some out) :
    Schema.validate (.model fields) out = some out ∧
      Schema.view (.model fields) out = Schema.view (.model fields) value := by
  cases value with
  | dict entries =>
    have hpicked : Schema.validate (.model fields) (.dict (State.pick entries keys)) = some out := h
    refine ⟨Schema.validate_validated _ hw hpicked, ?_⟩
    rw [Schema.view_validate _ hw hpicked, Schema.view_pick fields entries keys hkeys]
  | _ => cases h

theorem mapM_readModel_spec (hw : Schema.wellFormed (.model fields) = true)
    (hkeys : ∀ name ∈ Schema.names fields, name ∈ keys) {values outs : List Value}
    (h : values.mapM (readModel (.model fields) keys) = some outs) :
    outs.mapM (Schema.validate (.model fields)) = some outs ∧
      outs.map (Schema.view (.model fields)) = values.map (Schema.view (.model fields)) := by
  constructor
  · induction values generalizing outs with
    | nil =>
      cases h
      rfl
    | cons value values ih =>
      simp only [List.mapM_cons, Option.bind_eq_bind, Option.bind_eq_some_iff] at h
      obtain ⟨first, hfirst, rest, hrest, hout⟩ := h
      cases hout
      simp [List.mapM_cons, (readModel_spec hw hkeys hfirst).1, ih hrest]
  · exact Schema.map_view_mapM (fun hread => (readModel_spec hw hkeys hread).2) h

variable {α : Type} {compact : Value → Value}

theorem readModels_compact (type : Schema) (keys : List String) {toState : α → Value}
    (hstate : ∀ x, (toState x).isDict = true) (hcompact : ∀ x, (compact (toState x)).isDict = true)
    (objects : List α) :
    readModels type keys (compactItems compact (.list (objects.map toState))) =
      (objects.map fun x => compact (toState x)).mapM (readModel type keys) := by
  have hall : (objects.map fun x => compact (toState x)).all Value.isDict = true := by
    rw [List.all_eq_true]
    intro value hvalue
    obtain ⟨x, -, rfl⟩ := List.mem_map.mp hvalue
    exact hcompact x
  rw [compactItems_map compact hstate, readModels, mappingList, if_pos hall, Option.bind_some]

/-! ### Schemas -/

theorem vehicleCandidateResponse_wellFormed : vehicleCandidateResponse.wellFormed = true := by decide

theorem routeCandidateResponse_wellFormed : routeCandidateResponse.wellFormed = true := by decide

theorem vehicleAllocationResponse_wellFormed : vehicleAllocationResponse.wellFormed = true := by
  decide

theorem routePlanResponse_wellFormed : routePlanResponse.wellFormed = true := by decide

theorem pathResponse_wellFormed : pathResponse.wellFormed = true := by decide

/-! ### The vehicle allocation -/

theorem readPath_spec (h : readPath value = some out) :
    Schema.validate (.optional pathResponse) out = some out ∧
      pathResponse.view out = pathResponse.view value := by
  unfold readPath at h
  split at h
  next hnone =>
    cases h
    rw [hnone]
    exact ⟨rfl, rfl⟩
  next hsome =>
    obtain ⟨hvalid, hview⟩ := readModel_spec pathResponse_wellFormed (by decide) h
    refine ⟨?_, hview⟩
    by_cases hout : out = .none
    · rw [hout]
      rfl
    · simp only [Schema.validate, if_neg hout]
      exact hvalid

theorem isSome_validate_allocation (original target driver : Option String) (reassigned : Bool)
    (formula : String) {candidates : List Value} {pickup : Value}
    (hcandidates : candidates.mapM vehicleCandidateResponse.validate = some candidates)
    (hpickup : Schema.validate (.optional pathResponse) pickup = some pickup) :
    (vehicleAllocationResponse.validate (.dict [
      ("original_vehicle_id", ofText original),
      ("target_vehicle_id", ofText target),
      ("target_driver_id", ofText driver),
      ("vehicle_reassigned", .bool reassigned),
      ("candidate_vehicles", .list candidates),
      ("pickup_route", pickup),
      ("scoring_formula", .str formula)])).isSome = true := by
  simp [vehicleAllocationResponse, required, orNone, orEmpty, Schema.isSome_validate_model,
    Schema.names, List.lookup_cons, Schema.validate_list, hcandidates, hpickup]

variable {sha256 : String → String} {s : State} {b : Behind} {candidate : Value}

variable {vehicles : List VehicleCandidate}

theorem Reserved.texts (h : Reserved vehicles candidate) :
    ∃ target driver : Option String, text candidate "vehicle_id" = ofText target ∧
      text candidate "driver_id" = ofText driver := by
  rw [h.text_eq.1, h.text_eq.2]
  cases h with
  | nobody => exact ⟨none, none, rfl, rfl⟩
  | vehicle c driverId hmem heligible hvehicle hdriver hname =>
    exact ⟨some c.vehicleId, c.driverId, rfl, rfl⟩

/-- The pickup route that the reader answers: that of the reserved candidate, else that of the state. -/
def storedPickup (s : State) (candidate : Value) : Value :=
  if candidate = .none then s.get "pickup_route" else candidate.get "pickup_route"

theorem Shows.candidateVehicles (hs : Shows s b) :
    (dispatchCall s).candidateVehicles = b.vehicles.candidates.map candidateToState := by
  show (s.getOr "candidate_vehicles" (.list [])).items = _
  rw [hs.vehicles]
  rfl

theorem Reserved.pickup (h : Reserved vehicles candidate)
    (hc : candidate ≠ .none) : ∃ path, candidate.get "pickup_route" = pathToState (some path) := by
  cases h with
  | nobody => exact absurd rfl hc
  | vehicle c driverId hmem heligible hvehicle hdriver hname =>
    obtain ⟨path, hpath⟩ := Option.isSome_iff_exists.mp (c.pickup_of_eligible heligible)
    exact ⟨path, congrArg pathToState hpath⟩

theorem storedPickup_path (hs : Shows s b) (hc : Reserved b.vehicles.candidates candidate) :
    ∃ path, storedPickup s candidate = pathToState path := by
  unfold storedPickup
  split
  · exact ⟨_, hs.pickupRoute⟩
  next hne =>
    obtain ⟨path, hpath⟩ := hc.pickup hne
    exact ⟨some path, hpath⟩

theorem pickup_source (hs : Shows s b) (hc : Reserved b.vehicles.candidates candidate)
    (hnamed : Named b.vehicles.candidates) :
    (if (fleetEntries (dispatchCall s).candidateVehicles (dispatchCall s).originalVehicleId
          (text candidate "vehicle_id")).get "pickup_route" = .none then
        (routeEntries (dispatchCall s).routeEvidence (dispatchCall s).originalRouteId
          (dispatchCall s).targetRouteId).get "pickup_path"
      else (fleetEntries (dispatchCall s).candidateVehicles (dispatchCall s).originalVehicleId
          (text candidate "vehicle_id")).get "pickup_route") =
      compactPath (storedPickup s candidate) := by
  have hfleet : (fleetEntries (dispatchCall s).candidateVehicles (dispatchCall s).originalVehicleId
      (text candidate "vehicle_id")).get "pickup_route" =
      compactPath (candidate.get "pickup_route") := by
    rw [hs.candidateVehicles, hc.fleetEntries b.vehicles.vehicleIds_nodup hnamed]
    rfl
  have hroute : (routeEntries (dispatchCall s).routeEvidence (dispatchCall s).originalRouteId
      (dispatchCall s).targetRouteId).get "pickup_path" = compactPath (s.get "pickup_route") := by
    have hpath : (dispatchCall s).routeEvidence.get "pickup_path" = .none := rfl
    show compactPath (if (dispatchCall s).routeEvidence.get "pickup_path" = .none then
      (dispatchCall s).routeEvidence.get "pickup_route"
      else (dispatchCall s).routeEvidence.get "pickup_path") = _
    rw [if_pos hpath]
    rfl
  rw [hfleet, hroute, storedPickup]
  by_cases hnone : candidate = .none
  · simp [hnone, compactPath]
  · obtain ⟨path, hpath⟩ := hc.pickup hnone
    rw [if_neg hnone, hpath]
    rfl

theorem readAllocation_named (hs : Shows s b) (htyped : VehicleTyped s)
    (hc : Reserved b.vehicles.candidates candidate) (hnamed : Named b.vehicles.candidates) :
    ∃ allocation,
      readAllocation ⟨(dispatchCall s).originalVehicleId, text candidate "vehicle_id",
          text candidate "driver_id", [fleetRow (dispatchCall s) (text candidate "vehicle_id"),
            routeRow (dispatchCall s)]⟩
        (fleetRow (dispatchCall s) (text candidate "vehicle_id"))
        (fleetEntries (dispatchCall s).candidateVehicles (dispatchCall s).originalVehicleId
          (text candidate "vehicle_id"))
        (routeEntries (dispatchCall s).routeEvidence (dispatchCall s).originalRouteId
          (dispatchCall s).targetRouteId) = some allocation ∧
      allocation.get "target_vehicle_id" = candidate.get "vehicle_id" ∧
      allocation.get "target_driver_id" = candidate.get "driver_id" ∧
      Schema.view (.list vehicleCandidateResponse) (allocation.get "candidate_vehicles") =
        .list (b.vehicles.candidates.map fun c =>
          vehicleCandidateResponse.view (compactVehicleCandidate (candidateToState c))) ∧
      pathResponse.view (allocation.get "pickup_route") =
        pathResponse.view (storedPickup s candidate) := by
  obtain ⟨path, hpath⟩ := storedPickup_path hs hc
  -- the candidates
  have hread : ((b.vehicles.candidates.map fun c => compactVehicleCandidate (candidateToState c)).mapM
      (readModel vehicleCandidateResponse vehicleCandidateKeys)).isSome = true := by
    rw [Schema.isSome_mapM]
    intro value hvalue
    obtain ⟨c, hc, rfl⟩ := List.mem_map.mp hvalue
    exact (isSome_read_vehicle c).mpr (hnamed c hc)
  obtain ⟨outs, houts⟩ := Option.isSome_iff_exists.mp hread
  obtain ⟨hvalid, hview⟩ :=
    mapM_readModel_spec vehicleCandidateResponse_wellFormed (by decide) houts
  have hcandidates := readVehicleCandidates_eq b.vehicles.vehicleIds_nodup hnamed hc
    (dispatchCall s).originalVehicleId
  rw [houts, ← hs.candidateVehicles] at hcandidates
  -- the pickup route
  have hsource := pickup_source hs hc hnamed
  obtain ⟨pickup, hpickup⟩ := Option.isSome_iff_exists.mp (isSome_readPath path)
  obtain ⟨hpickupValid, hpickupView⟩ := readPath_spec hpickup
  rw [← hpath] at hpickup hpickupView
  -- the answer
  obtain ⟨target, driver, htarget, hdriver⟩ := hc.texts
  obtain ⟨original, horiginal⟩ : ∃ original, (dispatchCall s).originalVehicleId = ofText original := by
    obtain ⟨vehicleId, hvehicleId⟩ := htyped
    show ∃ original, (if s.get "original_vehicle_weight_tons" = .none then .none
      else s.getOr "vehicle_id" .none) = ofText original
    split
    · exact ⟨none, rfl⟩
    · exact ⟨vehicleId, hvehicleId⟩
  have hformula : (fleetRow (dispatchCall s) (text candidate "vehicle_id")).algorithmVersion =
      .str "FLEET_SCORE_V1" := rfl
  obtain ⟨allocation, hallocation⟩ := Option.isSome_iff_exists.mp
    (isSome_validate_allocation original target driver
      (decide (ofText target ≠ .none ∧ ofText target ≠ ofText original)) "FLEET_SCORE_V1" hvalid
      hpickupValid)
  have hshown := Schema.view_validate _ vehicleAllocationResponse_wellFormed hallocation
  have htargetShown := Schema.view_field hshown ("target_vehicle_id", required (.optional .str))
    (by simp)
  have hdriverShown := Schema.view_field hshown ("target_driver_id", required (.optional .str))
    (by simp)
  have hcandidatesShown := Schema.view_field hshown
    ("candidate_vehicles", orEmpty vehicleCandidateResponse) (by simp)
  have hpickupShown := Schema.view_field hshown ("pickup_route", orNone pathResponse) (by simp)
  refine ⟨allocation, ?_, ?_, ?_, ?_, ?_⟩
  · simp only [readAllocation, hcandidates, hformula, Option.bind_eq_bind, Option.bind_some]
    rw [hsource, hpickup, htarget, hdriver, horiginal]
    exact hallocation
  · rw [← hc.text_eq.1, htarget]
    exact htargetShown
  · rw [← hc.text_eq.2, hdriver]
    exact hdriverShown
  · have houtsShown : outs.map (Schema.view vehicleCandidateResponse) =
        (b.vehicles.candidates.map fun c => compactVehicleCandidate (candidateToState c)).map
          (Schema.view vehicleCandidateResponse) := hview
    refine Eq.trans hcandidatesShown ?_
    show Value.list (outs.map (Schema.view vehicleCandidateResponse)) = _
    rw [houtsShown, List.map_map]
    rfl
  · have hkept := view_compactPath path
    rw [← hpath] at hkept
    exact Eq.trans hpickupShown (Eq.trans hpickupView hkept)

/-! ### The route plan -/

theorem integer_typed (value : Value) : ∃ o, integer value = ofInt o := by
  cases value with
  | int z => exact ⟨some z, rfl⟩
  | _ => exact ⟨none, rfl⟩

theorem nonEmptyText_typed (value : Value) : ∃ o, nonEmptyText value = ofText o := by
  cases value with
  | str text =>
    by_cases h : text = ""
    · exact ⟨none, by simp [nonEmptyText, h, ofText]⟩
    · exact ⟨some text, by simp [nonEmptyText, h, ofText]⟩
  | _ => exact ⟨none, rfl⟩

theorem algorithmVersion_typed (evidence : Value) (default : String) :
    ∃ version, algorithmVersion evidence default = .str version := by
  unfold algorithmVersion
  split
  · exact ⟨_, rfl⟩
  · exact ⟨_, rfl⟩

theorem stringList_typed (value : Value) : ∃ items, stringList value = texts items := by
  have hlist : ∀ values : List Value, ∃ items : List String,
      values.filter isText = items.map Value.str := by
    intro values
    induction values with
    | nil => exact ⟨[], rfl⟩
    | cons head values ih =>
      obtain ⟨items, hitems⟩ := ih
      cases head with
      | str text =>
        exact ⟨text :: items, by rw [List.filter_cons_of_pos rfl, hitems, List.map_cons]⟩
      | _ => exact ⟨items, by rw [List.filter_cons_of_neg (by simp [isText]), hitems]⟩
  obtain ⟨items, hitems⟩ := hlist value.items
  exact ⟨items, congrArg Value.list hitems⟩

theorem readStringList_texts (items : List String) : readStringList (texts items) = some (texts items) := by
  have hall : (items.map Value.str).all isText = true := by
    rw [List.all_eq_true]
    intro value hvalue
    obtain ⟨s, -, rfl⟩ := List.mem_map.mp hvalue
    rfl
  rw [texts, readStringList, if_pos hall]

theorem isSome_validate_plan (blocked : List String) (distance status : Option String)
    (eta visited version : Option ℤ) (algorithm : String) {original recommended realRoad : Value}
    {routes nodes edges : List Value}
    (horiginal : Schema.validate (.optional pathResponse) original = some original)
    (hrecommended : Schema.validate (.optional pathResponse) recommended = some recommended)
    (hroutes : routes.mapM routeCandidateResponse.validate = some routes)
    (hnodes : nodes.mapM roadNodeResponse.validate = some nodes)
    (hedges : edges.mapM roadEdgeResponse.validate = some edges)
    (hrealRoad : Schema.validate (.optional realRoadRouteResponse) realRoad = some realRoad) :
    (routePlanResponse.validate (.dict [
      ("original_path", original),
      ("recommended_path", recommended),
      ("candidate_routes", .list routes),
      ("blocked_edge_ids", texts blocked),
      ("distance_delta_km", ofText distance),
      ("eta_delta_minutes", ofInt eta),
      ("visited_node_count", ofInt visited),
      ("routing_status", ofText status),
      ("algorithm", .str algorithm),
      ("road_network_version", ofInt version),
      ("network_nodes", .list nodes),
      ("network_edges", .list edges),
      ("real_road_route", realRoad)])).isSome = true := by
  simp [routePlanResponse, required, orNone, orEmpty, Schema.isSome_validate_model,
    Schema.names, List.lookup_cons, Schema.validate_list, horiginal, hrecommended, hroutes, hnodes, hedges,
    hrealRoad]

structure RouteRow (b : Behind) (entries : State) : Prop where
  originalPath : entries.get "original_path" = compactPath (pathToState b.originalPath)
  recommendedPath : entries.get "recommended_path" = compactPath (recommendedToState b.recommendedPath)
  routes : entries.get "candidate_routes" =
    compactItems compactRouteCandidate (.list (b.routes.map routeCandidateToState))
  nodes : entries.get "network_nodes" =
    compactItems compactNetworkNode (.list (b.nodes.map nodeToState))
  edges : entries.get "network_edges" =
    compactItems compactNetworkEdge (.list (b.edges.map edgeToState))
  realRoad : entries.get "real_road_route" =
    compactRealRoadRoute ((b.realRoad.map realRoadRouteToState).getD .none)
  distanceDeltaKm : entries.get "distance_delta_km" = ofText b.distanceDeltaKm
  etaDeltaMinutes : entries.get "eta_delta_minutes" = ofInt b.etaDeltaMinutes
  blocked : ∃ items, entries.get "blocked_edge_ids" = texts items
  status : ∃ status, entries.get "routing_status" = ofText status
  visited : entries.lookup "visited_node_count" =
    some (ofInt (b.recommendedPath.map PathResult.visitedNodeCount))

theorem Shows.routeRow (hs : Shows s b) :
    RouteRow b (routeEntries (dispatchCall s).routeEvidence (dispatchCall s).originalRouteId
      (dispatchCall s).targetRouteId) where
  originalPath := congrArg compactPath hs.originalPath
  recommendedPath := congrArg compactPath hs.recommendedPath
  routes := congrArg (compactItems compactRouteCandidate) hs.routes
  nodes := congrArg (compactItems compactNetworkNode) hs.nodes
  edges := congrArg (compactItems compactNetworkEdge) hs.edges
  realRoad := congrArg compactRealRoadRoute hs.realRoad
  distanceDeltaKm := (congrArg numberText hs.distanceDeltaKm).trans (numberText_ofText _)
  etaDeltaMinutes := (congrArg integer hs.etaDeltaMinutes).trans (integer_ofInt _)
  blocked := stringList_typed _
  status := nonEmptyText_typed _
  visited := by
    show some ((compactPath (s.getOr "recommended_path" .none)).get "visited_node_count") = _
    rw [hs.recommendedPath]
    cases b.recommendedPath <;> rfl

theorem Behind.isSome_readRealRoad (b : Behind) (h : ∀ route, b.realRoad = some route → route.Planned) :
    (readRealRoadRoute
      (compactRealRoadRoute ((b.realRoad.map realRoadRouteToState).getD .none))).isSome = true := by
  cases hroad : b.realRoad with
  | none => rfl
  | some route => exact Evidence.isSome_readRealRoad (h route hroad)

theorem Behind.view_realRoad (b : Behind) (h : ∀ route, b.realRoad = some route → route.Planned) :
    realRoadRouteResponse.view
        (compactRealRoadRoute ((b.realRoad.map realRoadRouteToState).getD .none)) =
      realRoadRouteResponse.view ((b.realRoad.map realRoadRouteToState).getD .none) := by
  cases hroad : b.realRoad with
  | none => rfl
  | some route => exact Evidence.view_realRoad (h route hroad)

theorem readRealRoadRoute_spec (h : readRealRoadRoute value = some out) :
    Schema.validate (.optional realRoadRouteResponse) out = some out ∧
      realRoadRouteResponse.view out = realRoadRouteResponse.view value := by
  have hw : realRoadRouteResponse.wellFormed = true := by decide
  unfold readRealRoadRoute at h
  split at h
  next hnone =>
    cases h
    rw [hnone]
    exact ⟨rfl, rfl⟩
  next hsome =>
    refine ⟨?_, Schema.view_validate _ hw h⟩
    by_cases hout : out = .none
    · rw [hout]
      rfl
    · simp only [Schema.validate, if_neg hout]
      exact Schema.validate_validated _ hw h

structure PlanReadable (b : Behind) : Prop where
  routes : ∀ route ∈ b.routes, (readModel routeCandidateResponse routeCandidateKeys
    (compactRouteCandidate (routeCandidateToState route))).isSome = true
  nodes : ∀ node ∈ b.nodes, ∀ key ∈ nodeTextKeys, (nodeToState node).get key ≠ .str ""
  edges : ∀ edge ∈ b.edges, ∀ key ∈ edgeTextKeys, (edgeToState edge).get key ≠ .str ""

theorem isSome_readModels_compact (type : Schema) (keys : List String) {toState : α → Value}
    (hstate : ∀ x, (toState x).isDict = true) (hcompact : ∀ x, (compact (toState x)).isDict = true)
    (objects : List α) :
    (readModels type keys (compactItems compact (.list (objects.map toState)))).isSome = true ↔
      ∀ x ∈ objects, (readModel type keys (compact (toState x))).isSome = true := by
  rw [readModels_compact type keys hstate hcompact, Schema.isSome_mapM]
  constructor
  · intro h x hx
    exact h _ (List.mem_map_of_mem hx)
  · intro h value hvalue
    obtain ⟨x, hx, rfl⟩ := List.mem_map.mp hvalue
    exact h x hx

theorem isSome_readRoutes (b : Behind) :
    (readRouteCandidates (compactItems compactRouteCandidate
      (.list (b.routes.map routeCandidateToState)))).isSome = true ↔
      ∀ route ∈ b.routes, (readModel routeCandidateResponse routeCandidateKeys
        (compactRouteCandidate (routeCandidateToState route))).isSome = true :=
  isSome_readModels_compact _ _ (fun _ => rfl) (fun _ => rfl) b.routes

theorem isSome_readNodes (b : Behind) :
    (readRoadNodes (compactItems compactNetworkNode (.list (b.nodes.map nodeToState)))).isSome =
        true ↔
      ∀ node ∈ b.nodes, ∀ key ∈ nodeTextKeys, (nodeToState node).get key ≠ .str "" :=
  (isSome_readModels_compact _ _ (fun _ => rfl) (fun _ => rfl) b.nodes).trans
    (forall₂_congr fun node _ => isSome_read_node node)

theorem isSome_readEdges (b : Behind) :
    (readRoadEdges (compactItems compactNetworkEdge (.list (b.edges.map edgeToState)))).isSome =
        true ↔
      ∀ edge ∈ b.edges, ∀ key ∈ edgeTextKeys, (edgeToState edge).get key ≠ .str "" :=
  (isSome_readModels_compact _ _ (fun _ => rfl) (fun _ => rfl) b.edges).trans
    (forall₂_congr fun edge _ => isSome_read_edge edge)

variable {entries : State} {row : EvidenceRow}

theorem planReadable_of_read (hrow : RouteRow b entries)
    (h : (readRoutePlan row entries).isSome = true) : PlanReadable b := by
  obtain ⟨plan, hplan⟩ := Option.isSome_iff_exists.mp h
  simp only [readRoutePlan, hrow.originalPath, hrow.recommendedPath, hrow.routes, hrow.nodes,
    hrow.edges, Option.bind_eq_bind, Option.bind_eq_some_iff] at hplan
  obtain ⟨recommended, -, original, -, routes, hroutes, blocked, -, nodes, hnodes, edges, hedges, -⟩ :=
    hplan
  exact ⟨(isSome_readRoutes b).mp (Option.isSome_iff_exists.mpr ⟨routes, hroutes⟩),
    (isSome_readNodes b).mp (Option.isSome_iff_exists.mpr ⟨nodes, hnodes⟩),
    (isSome_readEdges b).mp (Option.isSome_iff_exists.mpr ⟨edges, hedges⟩)⟩

theorem readRoutePlan_readable (hrow : RouteRow b entries)
    (hroad : ∀ route, b.realRoad = some route → route.Planned) (hb : PlanReadable b) {algorithm : String}
    (halgorithm : row.algorithmVersion = .str algorithm) {version : Option ℤ}
    (hversion : row.roadNetworkVersion = ofInt version) :
    ∃ plan, readRoutePlan row entries = some plan ∧
      Schema.view (.list routeCandidateResponse) (plan.get "candidate_routes") =
        .list (b.routes.map fun route =>
          routeCandidateResponse.view (compactRouteCandidate (routeCandidateToState route))) ∧
      pathResponse.view (plan.get "original_path") =
        pathResponse.view (pathToState b.originalPath) ∧
      pathResponse.view (plan.get "recommended_path") =
        pathResponse.view (recommendedToState b.recommendedPath) ∧
      realRoadRouteResponse.view (plan.get "real_road_route") =
        realRoadRouteResponse.view ((b.realRoad.map realRoadRouteToState).getD .none) ∧
      plan.get "distance_delta_km" = ofText b.distanceDeltaKm ∧
      plan.get "eta_delta_minutes" = ofInt b.etaDeltaMinutes := by
  -- the parts
  obtain ⟨original, horiginal⟩ := Option.isSome_iff_exists.mp (isSome_readPath b.originalPath)
  obtain ⟨horiginalValid, horiginalView⟩ := readPath_spec horiginal
  obtain ⟨recommended, hrecommended⟩ :=
    Option.isSome_iff_exists.mp (isSome_readPath_recommended b.recommendedPath)
  obtain ⟨hrecommendedValid, hrecommendedView⟩ := readPath_spec hrecommended
  obtain ⟨routes, hroutes⟩ := Option.isSome_iff_exists.mp ((isSome_readRoutes b).mpr hb.routes)
  obtain ⟨nodes, hnodes⟩ := Option.isSome_iff_exists.mp ((isSome_readNodes b).mpr hb.nodes)
  obtain ⟨edges, hedges⟩ := Option.isSome_iff_exists.mp ((isSome_readEdges b).mpr hb.edges)
  obtain ⟨realRoad, hrealRoad⟩ := Option.isSome_iff_exists.mp (b.isSome_readRealRoad hroad)
  obtain ⟨hrealRoadValid, hrealRoadView⟩ := readRealRoadRoute_spec hrealRoad
  obtain ⟨blocked, hblocked⟩ := hrow.blocked
  obtain ⟨status, hstatus⟩ := hrow.status
  have hroutesRead := (readModels_compact routeCandidateResponse routeCandidateKeys (fun _ => rfl)
    (fun _ => rfl) b.routes).symm.trans hroutes
  obtain ⟨hroutesValid, hroutesView⟩ :=
    mapM_readModel_spec routeCandidateResponse_wellFormed (by decide) hroutesRead
  have hnodesValid := (mapM_readModel_spec (by decide) (by decide)
    ((readModels_compact roadNodeResponse _ (fun _ => rfl) (fun _ => rfl) b.nodes).symm.trans
      hnodes)).1
  have hedgesValid := (mapM_readModel_spec (by decide) (by decide)
    ((readModels_compact roadEdgeResponse _ (fun _ => rfl) (fun _ => rfl) b.edges).symm.trans
      hedges)).1
  -- the answer
  obtain ⟨plan, hplan⟩ := Option.isSome_iff_exists.mp
    (isSome_validate_plan blocked b.distanceDeltaKm status b.etaDeltaMinutes
      (b.recommendedPath.map PathResult.visitedNodeCount) version algorithm horiginalValid
      hrecommendedValid hroutesValid hnodesValid hedgesValid hrealRoadValid)
  have hshown := Schema.view_validate _ routePlanResponse_wellFormed hplan
  have hroutesShown := Schema.view_field hshown
    ("candidate_routes", orEmpty routeCandidateResponse) (by simp)
  have horiginalShown := Schema.view_field hshown ("original_path", orNone pathResponse) (by simp)
  have hrecommendedShown := Schema.view_field hshown ("recommended_path", orNone pathResponse)
    (by simp)
  have hrealRoadShown := Schema.view_field hshown
    ("real_road_route", orNone realRoadRouteResponse) (by simp)
  have hdistanceShown := Schema.view_field hshown ("distance_delta_km", orNone .str) (by simp)
  have hetaShown := Schema.view_field hshown ("eta_delta_minutes", orNone .int) (by simp)
  refine ⟨plan, ?_, ?_, ?_, ?_, ?_, hdistanceShown, hetaShown⟩
  · simp only [readRoutePlan, hrow.originalPath, hrow.recommendedPath, hrow.routes, hrow.nodes,
      hrow.edges, hrow.realRoad, hrow.distanceDeltaKm, hrow.etaDeltaMinutes, hrow.visited, hblocked,
      hstatus, halgorithm, hversion, horiginal, hrecommended, hroutes, hnodes, hedges, hrealRoad,
      readStringList_texts, Option.bind_eq_bind, Option.bind_some, Option.getD_some]
    exact hplan
  · have houtsShown : routes.map (Schema.view routeCandidateResponse) =
        (b.routes.map fun route => compactRouteCandidate (routeCandidateToState route)).map
          (Schema.view routeCandidateResponse) := hroutesView
    refine Eq.trans hroutesShown ?_
    show Value.list (routes.map (Schema.view routeCandidateResponse)) = _
    rw [houtsShown, List.map_map]
    rfl
  · exact Eq.trans horiginalShown (Eq.trans horiginalView (view_compactPath b.originalPath))
  · exact Eq.trans hrecommendedShown
      (Eq.trans hrecommendedView (view_compactPath_recommended b.recommendedPath))
  · exact Eq.trans hrealRoadShown (Eq.trans hrealRoadView (b.view_realRoad hroad))

/-! ### The dispatch -/

def storedFor (call : DispatchCall) (candidate : Value) : StoredDispatch where
  originalVehicleId := call.originalVehicleId
  targetVehicleId := text candidate "vehicle_id"
  targetDriverId := text candidate "driver_id"
  evidence := [fleetRow call (text candidate "vehicle_id"), Evidence.routeRow call]

theorem executeOnce_reserved (hs : Shows s b) {reserves : String → Bool} {stored : StoredDispatch}
    (hmem : candidate ∈ attempts (dispatchCall s))
    (h : executeOnce reserves (dispatchCall s) candidate = some stored) :
    Reserved b.vehicles.candidates candidate ∧ stored = storedFor (dispatchCall s) candidate := by
  simp only [executeOnce, Option.ite_none_left_eq_some, not_and, Bool.not_eq_false] at h
  obtain ⟨hreserved, hstored⟩ := h
  refine ⟨?_, (Option.some.inj hstored).symm⟩
  by_cases hnone : candidate = .none
  · rw [hnone]
    exact .nobody
  have hranked : candidate ∈ rankedEligibleCandidates (dispatchCall s).candidateVehicles := by
    unfold attempts at hmem
    split at hmem
    · exact absurd (List.mem_singleton.mp hmem) hnone
    · exact List.mem_of_mem_take hmem
  rw [hs.candidateVehicles] at hranked
  obtain ⟨hlisted, heligible⟩ := List.mem_filter.mp hranked
  obtain ⟨c, hc, rfl⟩ := List.mem_map.mp hlisted
  have hreserved := hreserved hnone
  have hvehicle : c.vehicleId ≠ "" := by
    intro hempty
    have htext : text (candidateToState c) "vehicle_id" = .none := by
      show nonEmptyText (.str c.vehicleId) = .none
      rw [hempty]
      rfl
    rw [htext] at hreserved
    cases hreserved
  rw [text_vehicleId hvehicle] at hreserved
  simp only [Bool.and_eq_true, decide_eq_true_eq] at hreserved
  have hdriver : nonEmptyText (ofText c.driverId) ≠ .none := hreserved.2
  cases hid : c.driverId with
  | none =>
    rw [hid] at hdriver
    exact absurd rfl hdriver
  | some driverId =>
    rw [hid] at hdriver
    have hname : driverId ≠ "" := by
      rintro rfl
      exact hdriver rfl
    have heligible' : Value.bool c.eligible = .bool true := of_decide_eq_true heligible
    exact .vehicle c driverId hc (Value.bool.inj heligible') hvehicle hid hname

theorem evidenceResponses_storedFor (call : DispatchCall) (candidate : Value) :
    evidenceResponses (storedFor call candidate) =
      (readAllocation (storedFor call candidate) (fleetRow call (text candidate "vehicle_id"))
        (fleetEntries call.candidateVehicles call.originalVehicleId (text candidate "vehicle_id"))
        (routeEntries call.routeEvidence call.originalRouteId call.targetRouteId)).bind
        fun allocation => (readRoutePlan (Evidence.routeRow call)
          (routeEntries call.routeEvidence call.originalRouteId call.targetRouteId)).bind
          fun plan => some (allocation, plan) := rfl

theorem Complete.behind (hs : Shows s b) :
    Complete s ↔
      ((∀ c ∈ b.vehicles.candidates, ∀ key ∈ vehicleTextKeys, (candidateToState c).get key ≠ .str "") ∧
        (∀ route ∈ b.routes, RouteComplete (routeCandidateToState route)) ∧
        (∀ node ∈ b.nodes, ∀ key ∈ nodeTextKeys, (nodeToState node).get key ≠ .str "") ∧
        ∀ edge ∈ b.edges, ∀ key ∈ edgeTextKeys, (edgeToState edge).get key ≠ .str "") := by
  have hvehicles := items_getOr s "candidate_vehicles"
  have hroutes := items_getOr s "candidate_routes"
  have hnodes := items_getOr s "road_network_nodes"
  have hedges := items_getOr s "road_network_edges"
  rw [hs.vehicles, Value.items_list] at hvehicles
  rw [hs.routes, Value.items_list] at hroutes
  rw [hs.nodes, Value.items_list] at hnodes
  rw [hs.edges, Value.items_list] at hedges
  constructor
  · intro h
    refine ⟨?_, ?_, ?_, ?_⟩
    · exact fun c hc => h.vehicles _ (hvehicles ▸ List.mem_map_of_mem hc)
    · exact fun route hroute => h.routes _ (hroutes ▸ List.mem_map_of_mem hroute)
    · exact fun node hnode => h.nodes _ (hnodes ▸ List.mem_map_of_mem hnode)
    · exact fun edge hedge => h.edges _ (hedges ▸ List.mem_map_of_mem hedge)
  · rintro ⟨hv, hr, hn, he⟩
    constructor
    · rw [← hvehicles]
      exact List.forall_mem_map.mpr hv
    · rw [← hroutes]
      exact List.forall_mem_map.mpr hr
    · rw [← hnodes]
      exact List.forall_mem_map.mpr hn
    · rw [← hedges]
      exact List.forall_mem_map.mpr he

theorem storedPickup_first (hs : Shows s b) (hfirst : (attempts (dispatchCall s)).head? = some candidate) :
    storedPickup s candidate = s.get "pickup_route" := by
  unfold storedPickup
  by_cases hnone : candidate = .none
  · rw [if_pos hnone]
  rw [if_neg hnone]
  unfold attempts at hfirst
  rw [hs.candidateVehicles] at hfirst
  split at hfirst
  · exact absurd (Option.some.inj hfirst).symm hnone
  rw [List.head?_take, if_neg (by decide), rankedEligibleCandidates, List.head?_filter,
    List.find?_map] at hfirst
  obtain ⟨c, hc, rfl⟩ := Option.map_eq_some_iff.mp hfirst
  have hselected : b.vehicles.selected = some c := by
    rw [← hc]
    unfold FleetAllocationResult.selected
    congr 1
    funext v
    show v.eligible = decide (Value.bool v.eligible = .bool true)
    cases v.eligible <;> rfl
  show pathToState c.pickupRoute = s.getOr "pickup_route" .none
  rw [hs.pickupRoute, hs.pickup_of_selected c hselected]

/-- What the two answers of a readable dispatch show: the stored objects. -/
structure Answered (s : State) (b : Behind) (candidate allocation plan : Value) : Prop where
  targetVehicle : allocation.get "target_vehicle_id" = candidate.get "vehicle_id"
  targetDriver : allocation.get "target_driver_id" = candidate.get "driver_id"
  candidates : Schema.view (.list vehicleCandidateResponse) (allocation.get "candidate_vehicles") =
    .list (b.vehicles.candidates.map fun c =>
      vehicleCandidateResponse.view (compactVehicleCandidate (candidateToState c)))
  pickup : pathResponse.view (allocation.get "pickup_route") =
    pathResponse.view (storedPickup s candidate)
  routes : Schema.view (.list routeCandidateResponse) (plan.get "candidate_routes") =
    .list (b.routes.map fun route =>
      routeCandidateResponse.view (compactRouteCandidate (routeCandidateToState route)))
  originalPath : pathResponse.view (plan.get "original_path") =
    pathResponse.view (pathToState b.originalPath)
  recommendedPath : pathResponse.view (plan.get "recommended_path") =
    pathResponse.view (recommendedToState b.recommendedPath)
  realRoad : realRoadRouteResponse.view (plan.get "real_road_route") =
    realRoadRouteResponse.view ((b.realRoad.map realRoadRouteToState).getD .none)
  distanceDeltaKm : plan.get "distance_delta_km" = ofText b.distanceDeltaKm
  etaDeltaMinutes : plan.get "eta_delta_minutes" = ofInt b.etaDeltaMinutes

theorem answered (hs : Shows s b) (htyped : VehicleTyped s) (hc : Reserved b.vehicles.candidates candidate)
    (hnamed : Named b.vehicles.candidates) (hreadable : PlanReadable b) :
    ∃ allocation plan, evidenceResponses (storedFor (dispatchCall s) candidate) =
      some (allocation, plan) ∧ Answered s b candidate allocation plan := by
  obtain ⟨allocation, hallocation, htarget, hdriver, hcandidates, hpickup⟩ :=
    readAllocation_named hs htyped hc hnamed
  obtain ⟨algorithm, halgorithm⟩ := algorithmVersion_typed (dispatchCall s).routeEvidence "DIJKSTRA_V1"
  obtain ⟨version, hversion⟩ :=
    integer_typed ((dispatchCall s).routeEvidence.get "road_network_version")
  have halgorithm' : (Evidence.routeRow (dispatchCall s)).algorithmVersion = .str algorithm :=
    halgorithm
  obtain ⟨plan, hplan, hroutes, horiginal, hrecommended, hroad, hdistance, heta⟩ :=
    readRoutePlan_readable hs.routeRow hs.realRoad_planned hreadable halgorithm' hversion
  refine ⟨allocation, plan, ?_, ⟨htarget, hdriver, hcandidates, hpickup, hroutes, horiginal,
    hrecommended, hroad, hdistance, heta⟩⟩
  rw [evidenceResponses_storedFor]
  exact Option.bind_eq_some_iff.mpr ⟨allocation, hallocation,
    Option.bind_eq_some_iff.mpr ⟨plan, hplan, rfl⟩⟩

theorem readable_of_answers (hs : Shows s b) {answers : Value × Value}
    (h : evidenceResponses (storedFor (dispatchCall s) candidate) = some answers) :
    Named b.vehicles.candidates ∧ PlanReadable b := by
  simp only [evidenceResponses_storedFor, Option.bind_eq_some_iff] at h
  obtain ⟨allocation, hallocation, plan, hplan, -⟩ := h
  refine ⟨?_, planReadable_of_read hs.routeRow (Option.isSome_iff_exists.mpr ⟨plan, hplan⟩)⟩
  simp only [readAllocation, Option.bind_eq_bind, Option.bind_eq_some_iff] at hallocation
  obtain ⟨candidates, hcandidates, -⟩ := hallocation
  rw [hs.candidateVehicles] at hcandidates
  exact named_of_readVehicleCandidates (Option.isSome_iff_exists.mpr ⟨candidates, hcandidates⟩)

theorem Answered.faithful_iff (hs : Shows s b) {allocation plan : Value}
    (h : Answered s b candidate allocation plan) :
    Faithful s candidate allocation plan ↔
      (∀ c ∈ b.vehicles.candidates, vehicleCandidateResponse.view
          (compactVehicleCandidate (candidateToState c)) =
        vehicleCandidateResponse.view (candidateToState c)) ∧
      ∀ route ∈ b.routes, routeCandidateResponse.view
          (compactRouteCandidate (routeCandidateToState route)) =
        routeCandidateResponse.view (routeCandidateToState route) := by
  have hvehicles := (view_list_getOr vehicleCandidateResponse s "candidate_vehicles").symm
  have hroutes := (view_list_getOr routeCandidateResponse s "candidate_routes").symm
  rw [hs.vehicles] at hvehicles
  rw [hs.routes] at hroutes
  have hvehicles' : Schema.view (.list vehicleCandidateResponse) (s.get "candidate_vehicles") =
      .list (b.vehicles.candidates.map fun c => vehicleCandidateResponse.view (candidateToState c)) := by
    rw [hvehicles, Schema.view, Value.items_list, List.map_map]
    rfl
  have hroutes' : Schema.view (.list routeCandidateResponse) (s.get "candidate_routes") =
      .list (b.routes.map fun route => routeCandidateResponse.view (routeCandidateToState route)) := by
    rw [hroutes, Schema.view, Value.items_list, List.map_map]
    rfl
  constructor
  · intro hf
    have hcandidates := h.candidates.symm.trans (hf.candidates.trans hvehicles')
    have hplanned := h.routes.symm.trans (hf.routes.trans hroutes')
    rw [Value.list.injEq, List.map_inj_left] at hcandidates hplanned
    exact ⟨hcandidates, hplanned⟩
  · rintro ⟨hv, hr⟩
    exact {
      targetVehicle := h.targetVehicle
      targetDriver := h.targetDriver
      candidates := by
        rw [h.candidates, hvehicles', List.map_congr_left hv]
      pickup_reserved := fun hne => by rw [h.pickup, storedPickup, if_neg hne]
      pickup_first := fun hfirst => by rw [h.pickup, storedPickup_first hs hfirst]
      routes := by
        rw [h.routes, hroutes', List.map_congr_left hr]
      originalPath := h.originalPath.trans (congrArg _ hs.originalPath.symm)
      recommendedPath := h.recommendedPath.trans (congrArg _ hs.recommendedPath.symm)
      realRoadRoute := h.realRoad.trans (congrArg _ hs.realRoad.symm)
      distanceDeltaKm := h.distanceDeltaKm.trans hs.distanceDeltaKm.symm
      etaDeltaMinutes := h.etaDeltaMinutes.trans hs.etaDeltaMinutes.symm }

/-- **The evidence of a fresh dispatch is read back, showing what the state holds, exactly when the
state is complete**: whichever candidate is reserved, and whatever the nodes wrote before. -/
theorem evidence_readable_iff {reserves : String → Bool} {stored : StoredDispatch} (hs : Reaches sha256 s)
    (hmem : candidate ∈ attempts (dispatchCall s))
    (h : executeOnce reserves (dispatchCall s) candidate = some stored) :
    (∃ allocation plan, evidenceResponses stored = some (allocation, plan) ∧
      Faithful s candidate allocation plan) ↔ Complete s := by
  obtain ⟨b, hb⟩ := hs.shows
  obtain ⟨hc, rfl⟩ := executeOnce_reserved hb hmem h
  rw [Complete.behind hb]
  constructor
  · rintro ⟨allocation, plan, hread, hfaithful⟩
    obtain ⟨hnamed, hreadable⟩ := readable_of_answers hb hread
    obtain ⟨allocation', plan', hread', hanswered⟩ := answered hb hs.vehicleTyped hc hnamed hreadable
    rw [hread] at hread'
    cases hread'
    obtain ⟨hv, hr⟩ := (hanswered.faithful_iff hb).mp hfaithful
    exact ⟨fun c hc => (view_vehicle c).mp (hv c hc),
      fun route hroute => (route_kept route).mp ⟨hreadable.routes route hroute, hr route hroute⟩,
      hreadable.nodes, hreadable.edges⟩
  · rintro ⟨hv, hr, hn, he⟩
    have hnamed : Named b.vehicles.candidates := by
      intro c hc hempty
      refine hv c hc "vehicle_id" (by decide) ?_
      show Value.str c.vehicleId = .str ""
      rw [hempty]
    obtain ⟨allocation, plan, hread, hanswered⟩ := answered hb hs.vehicleTyped hc hnamed
      ⟨fun route hroute => ((route_kept route).mpr (hr route hroute)).1, hn, he⟩
    exact ⟨allocation, plan, hread, (hanswered.faithful_iff hb).mpr
      ⟨fun c hc => (view_vehicle c).mpr (hv c hc),
        fun route hroute => ((route_kept route).mpr (hr route hroute)).2⟩⟩

/-! ### A catalogue and a plan -/

/-- `InMemoryRouteProvider.default_catalog`, scored by `route` without a risk. -/
def defaultCatalog : List RouteCandidate :=
  [{ routeId := "xinping-road", routeName := "新平路", distanceKm := ⟨false, 100, -1⟩
     estimatedMinutes := 20, riskLevel := "low", available := true, reason := none
     score := ⟨false, 7800, -2⟩ },
    { routeId := "national-102", routeName := "102国道", distanceKm := ⟨false, 130, -1⟩
      estimatedMinutes := 26, riskLevel := "low", available := true, reason := none
      score := ⟨false, 7140, -2⟩ },
    { routeId := "county-308", routeName := "308县道", distanceKm := ⟨false, 150, -1⟩
      estimatedMinutes := 30, riskLevel := "medium", available := true, reason := none
      score := ⟨false, 6700, -2⟩ }]

def taskState : State :=
  [("task_id", .str "T-1"), ("order_id", .int 1), ("route_id", .str "xinping-road"),
    ("vehicle_id", .str "V-1")]

theorem reaches_taskState (sha256 : String → String) : Reaches sha256 taskState :=
  .start taskState (by decide) ⟨some "V-1", rfl⟩

/-- The routes of the default catalogue make the evidence unreadable. -/
theorem default_catalog_unreadable :
    ∃ s stored, Reaches id s ∧ .none ∈ attempts (dispatchCall s) ∧
      executeOnce (fun _ => true) (dispatchCall s) .none = some stored ∧
      evidenceResponses stored = none := by
  refine ⟨(taskState.update (routePatch defaultCatalog)).update [],
    storedFor (dispatchCall ((taskState.update (routePatch defaultCatalog)).update [])) .none,
    .node _ _ _ (reaches_taskState id) (.route defaultCatalog) (by simp) List.nodup_nil ⟨none, rfl⟩,
    by decide +kernel, by decide +kernel, by decide +kernel⟩

def pickupPath : PathResult where
  objective := .fastest
  nodeIds := ["N01", "N02"]
  edgeIds := ["E01"]
  distanceKm := ⟨false, 310, -2⟩
  estimatedMinutes := 9
  riskCost := ⟨false, 0, 0⟩
  visitedNodeCount := 2

def eligibleVehicle (vehicleId driverId : String) : VehicleCandidate where
  vehicleId := vehicleId
  driverId := some driverId
  vehicleStatus := "AVAILABLE"
  remainingLoadKg := ⟨false, 100000, -2⟩
  pickupRoute := some pickupPath
  pickupDistanceKm := some ⟨false, 310, -2⟩
  pickupEtaMinutes := some 9
  scoreComponents := none
  score := some ⟨false, 801, -1⟩
  eligible := true
  exclusionReasons := []
  grossWeightTons := ⟨false, 250, -2⟩
  cargoCapability := "GENERAL"
  driverStatus := some "ON_DUTY"
  pickup_of_eligible := fun _ => rfl

def onePathPlan : PlanResult where
  candidateRoutes := [ScoredPath.candidate id 3
    ⟨pickupPath, ⟨⟨false, 0, 0⟩, ⟨false, 0, 0⟩, ⟨false, 0, 0⟩, ⟨false, 0, 0⟩, ⟨false, 0, 0⟩,
      ⟨false, 0, 0⟩⟩, ⟨false, 100, 0⟩⟩]
  routingStatus := "ROUTED"
  originalPath := some pickupPath
  recommendedPath := some pickupPath
  blockedEdgeIds := []
  roadNetworkVersion := some 3
  roadNetworkNodes := [⟨"N01", "中心仓", ⟨false, 0, 0⟩, ⟨false, 0, 0⟩, "STATION"⟩]
  roadNetworkEdges := []

/-- The state behind an allocation with two vehicles and a plan over real roads. -/
def plannedState : State :=
  (((taskState.update (capacityPatch ⟨[eligibleVehicle "V-2" "D-2", eligibleVehicle "V-3" "D-3"],
    by decide⟩)).update []).update (onePathPlan.patch ++ [("real_road_route", realRoadRouteToState
      (.fallback [⟨some "N01", ⟨false, 103044800, -6⟩, ⟨false, 25226500, -6⟩⟩,
        ⟨some "N02", ⟨false, 103032000, -6⟩, ⟨false, 25232000, -6⟩⟩]
        "AMap Web Service is not configured."))])).update []

theorem reaches_plannedState : Reaches id plannedState := by
  refine .node _ _ _ (.node _ _ _ (reaches_taskState id) (.capacity _) (by simp) List.nodup_nil
    ⟨none, rfl⟩) (.plan onePathPlan (some .unconfigured) _ ?_ ?_) (by simp) List.nodup_nil ⟨none, rfl⟩
  · exact .routed (some pickupPath) [⟨pickupPath, _, _⟩] _ [] 3 _ [] (List.mem_singleton_self _)
  · decide +kernel

/-- The second vehicle is reserved, and the answers are there. -/
theorem evidence_readable_iff_planned :
    ∃ allocation plan, evidenceResponses
        (storedFor (dispatchCall plannedState) (candidateToState (eligibleVehicle "V-3" "D-3"))) =
      some (allocation, plan) ∧
      Faithful plannedState (candidateToState (eligibleVehicle "V-3" "D-3")) allocation plan := by
  have hreserved : executeOnce (fun vehicleId => vehicleId = "V-3") (dispatchCall plannedState)
      (candidateToState (eligibleVehicle "V-3" "D-3")) =
      some (storedFor (dispatchCall plannedState) (candidateToState (eligibleVehicle "V-3" "D-3"))) := by
    decide +kernel
  exact (evidence_readable_iff reaches_plannedState (by decide +kernel) hreserved).mpr
    ⟨by decide +kernel, by decide +kernel, by decide +kernel, by decide +kernel⟩

end CountyFlow.Evidence
