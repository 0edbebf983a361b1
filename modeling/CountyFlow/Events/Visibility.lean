import CountyFlow.Events.Event
import CountyFlow.Events.Payloads

/-!
# What a viewer sees of a routing event

`TaskEventVisibilityProjector` of `app/events/visibility.py`.  A viewer who may not review sees, of an
unpublished task, the fields outside `SENSITIVE_EVENT_DATA_KEYS`.
-/

namespace CountyFlow.Events

open CountyFlow.Core

def sensitiveEventDataKeys : List String :=
  ["adopted_memory_id", "algorithm", "blocked_edge_ids", "candidate_routes", "candidate_vehicles",
    "decision_reason", "distance_delta_km", "driver_id", "eta_delta_minutes", "network_edges",
    "network_nodes", "original_path", "original_route_id", "original_vehicle_id", "pickup_route",
    "recommended_path", "recommended_route", "road_network_version", "route_id", "scoring_formula",
    "selected_driver_id", "selected_vehicle_id", "target_driver_id", "target_route_id",
    "target_vehicle_id", "transfer_node_id", "vehicle_id", "vehicle_reassigned", "visited_node_count"]

/-- `{key: value for key, value in data.items() if key not in SENSITIVE_EVENT_DATA_KEYS}`. -/
def visible (data : State) : State := data.filter fun entry => entry.1 ∉ sensitiveEventDataKeys

/-- `_is_published`: the answer of its query, `none` for a `SQLAlchemyError`. -/
def isPublished (query : Option Bool) : Bool := query.getD false

def project (event : TaskEvent) (query : Option Bool) (canReview : Bool) : State :=
  let payload := event.toDict
  let data := event.data.getD []
  if canReview = true ∨ ¬ data.any (fun entry => entry.1 ∈ sensitiveEventDataKeys) then payload
  else if isPublished query then payload
  else assign payload "data" (.dict (visible data))

/-! ### Hidden fields -/

variable {rest : State} {value : Value}

section Hidden

variable {key : String} {target source : State} {validator : Value → Option Value}

theorem visible_cons_sensitive (hkey : key ∈ sensitiveEventDataKeys) :
    visible ((key, value) :: rest) = visible rest := by
  simp [visible, hkey]

theorem visible_cons (hkey : key ∉ sensitiveEventDataKeys) :
    visible ((key, value) :: rest) = (key, value) :: visible rest := by
  simp [visible, hkey]

theorem visible_assign_sensitive (hkey : key ∈ sensitiveEventDataKeys) (value : Value) :
    visible (assign target key value) = visible target := by
  induction target with
  | nil => exact visible_cons_sensitive hkey
  | cons entry rest ih =>
    obtain ⟨k, v⟩ := entry
    by_cases hk : k = key
    · subst hk
      rw [assign, if_pos rfl, visible_cons_sensitive hkey, visible_cons_sensitive hkey]
    · rw [assign, if_neg hk]
      by_cases hsensitive : k ∈ sensitiveEventDataKeys
      · rw [visible_cons_sensitive hsensitive, visible_cons_sensitive hsensitive, ih]
      · rw [visible_cons hsensitive, visible_cons hsensitive, ih]

theorem visible_assign (hkey : key ∉ sensitiveEventDataKeys) (value : Value) :
    visible (assign target key value) = assign (visible target) key value := by
  induction target with
  | nil => exact visible_cons hkey
  | cons entry rest ih =>
    obtain ⟨k, v⟩ := entry
    by_cases hk : k = key
    · subst hk
      rw [assign, if_pos rfl, visible_cons hkey, visible_cons hkey, assign, if_pos rfl]
    · rw [assign, if_neg hk]
      by_cases hsensitive : k ∈ sensitiveEventDataKeys
      · rw [visible_cons_sensitive hsensitive, visible_cons_sensitive hsensitive, ih]
      · rw [visible_cons hsensitive, visible_cons hsensitive, ih, assign, if_neg hk]

theorem visible_putAs_sensitive {name : String} (hname : name ∈ sensitiveEventDataKeys) :
    visible (putAs name target source key validator) = visible target := by
  unfold putAs
  split
  · rfl
  · exact visible_assign_sensitive hname _

theorem visible_put_sensitive (hkey : key ∈ sensitiveEventDataKeys) :
    visible (put target source key validator) = visible target :=
  visible_putAs_sensitive hkey

theorem visible_put (hkey : key ∉ sensitiveEventDataKeys) :
    visible (put target source key validator) = put (visible target) source key validator := by
  unfold put putAs
  split
  · rfl
  · exact visible_assign hkey _

theorem visible_putOrNone_sensitive (hkey : key ∈ sensitiveEventDataKeys) :
    visible (putOrNone target source key validator) = visible target := by
  unfold putOrNone
  split
  · exact visible_assign_sensitive hkey _
  · exact visible_put_sensitive hkey

theorem visible_putOrNone (hkey : key ∉ sensitiveEventDataKeys) :
    visible (putOrNone target source key validator) = putOrNone (visible target) source key validator := by
  unfold putOrNone
  split
  · exact visible_assign hkey _
  · exact visible_put hkey

theorem visible_putVisitedNodeCount (projected : State) :
    visible (putVisitedNodeCount projected) = visible projected := by
  unfold putVisitedNodeCount
  split
  · split
    · rfl
    · exact visible_assign_sensitive (by decide) _
  · rfl

end Hidden

theorem visible_routingEvent (patch : State) : visible (projectRoutingEvent patch) =
    put (put (putOrNone (putOrNone (putOrNone [] patch "decision" nullableText)
      patch "memory_adopted" booleanValue) patch "requires_manual_review" booleanValue)
      patch "real_road_route" projectRealRoadRoute) patch "routing_status" nullableText := by
  simp only [projectRoutingEvent, visible_putVisitedNodeCount]
  rw [visible_putAs_sensitive (by decide), visible_putAs_sensitive (by decide),
    visible_put_sensitive (by decide), visible_putAs_sensitive (by decide), visible_put (by decide),
    visible_put_sensitive (by decide), visible_put_sensitive (by decide), visible_put (by decide),
    visible_put_sensitive (by decide), visible_put_sensitive (by decide),
    visible_put_sensitive (by decide), visible_put_sensitive (by decide),
    visible_putOrNone_sensitive (by decide), visible_putOrNone (by decide), visible_putOrNone (by decide),
    visible_putOrNone_sensitive (by decide), visible_putOrNone (by decide),
    visible_putOrNone_sensitive (by decide)]
  rfl

/-! ### Two proposed routes -/

/-- The fields of a routing patch that describe the proposed route. -/
def proposedRouteKeys : List String :=
  ["recommended_route", "recommended_path", "candidate_routes", "real_road_route", "blocked_edge_ids",
    "distance_delta_km", "eta_delta_minutes", "road_network_version", "road_network_nodes",
    "road_network_edges", "decision_reason"]

/-- What `_project_real_road_route` keeps of a patch. -/
def realRoadRouteOf (patch : State) : Option Value :=
  patch.lookup "real_road_route" >>= projectRealRoadRoute

theorem visible_eq_iff {a b : State} (hagree : ∀ key, key ∉ proposedRouteKeys → a.lookup key = b.lookup key) :
    visible (projectRoutingEvent a) = visible (projectRoutingEvent b) ↔
      realRoadRouteOf a = realRoadRouteOf b := by
  have hlookup (patch : State) :
      (visible (projectRoutingEvent patch)).lookup "real_road_route" = realRoadRouteOf patch := by
    rw [visible_routingEvent, lookup_put (by decide), lookup_put_self]
    · rfl
    · rw [lookup_putOrNone (by decide), lookup_putOrNone (by decide), lookup_putOrNone (by decide)]
      rfl
  constructor
  · intro h
    rw [← hlookup a, h, hlookup b]
  · intro h
    rw [visible_routingEvent, visible_routingEvent,
      putOrNone_congr nullableText (hagree "decision" (by decide)),
      putOrNone_congr booleanValue (hagree "memory_adopted" (by decide)),
      putOrNone_congr booleanValue (hagree "requires_manual_review" (by decide)),
      put_congr nullableText (hagree "routing_status" (by decide))]
    have hroute (target : State) : put target a "real_road_route" projectRealRoadRoute =
        put target b "real_road_route" projectRealRoadRoute := by
      have hpart : a.lookup "real_road_route" >>= projectRealRoadRoute =
          b.lookup "real_road_route" >>= projectRealRoadRoute := h
      simp only [put, putAs, hpart]
    rw [hroute]

def dataOf (payload : State) : Value := payload.get "data"

theorem dataOf_project {event : TaskEvent} {query : Option Bool} (hquery : query ≠ some true) :
    dataOf (project event query false) = .dict (visible (event.data.getD [])) := by
  have hunpublished : isPublished query = false := by
    cases query with
    | none => rfl
    | some published =>
      cases published with
      | false => rfl
      | true => exact absurd rfl hquery
  unfold project
  by_cases hany : (event.data.getD []).any (fun entry => entry.1 ∈ sensitiveEventDataKeys) = true
  · simp only [hany, hunpublished, Bool.false_eq_true, false_or, not_true_eq_false, if_false]
    unfold dataOf State.get
    rw [lookup_assign, if_pos rfl]
    rfl
  · simp only [hany, Bool.false_eq_true, false_or, not_false_eq_true, if_true]
    have hall : visible (event.data.getD []) = event.data.getD [] := by
      apply List.filter_eq_self.mpr
      intro entry hentry
      rw [decide_eq_true_eq]
      intro hsensitive
      exact hany (List.any_eq_true.mpr ⟨entry, hentry, by simpa using hsensitive⟩)
    rw [hall]
    rfl

/-- **The events of two patches that differ only in the proposed route show the same data exactly when
`_project_real_road_route` keeps the same of both.** -/
theorem same_data_iff {a b : State} (hagree : ∀ key, key ∉ proposedRouteKeys → a.lookup key = b.lookup key)
    (event : TaskEvent) {query : Option Bool} (hquery : query ≠ some true) :
    dataOf (project { event with data := some (projectRoutingEvent a) } query false) =
        dataOf (project { event with data := some (projectRoutingEvent b) } query false) ↔
      realRoadRouteOf a = realRoadRouteOf b := by
  rw [dataOf_project hquery, dataOf_project hquery, Value.dict.injEq]
  exact visible_eq_iff hagree

/-! ### Routes over other nodes -/

def waypoint (nodeId longitude latitude : String) : Value :=
  .dict [("node_id", .str nodeId), ("longitude", .str longitude), ("latitude", .str latitude)]

/-- A routing patch whose real-road route goes over one node. -/
def patchOver (nodeId longitude latitude : String) (candidates : List Value) : State :=
  [("decision", .str "route"), ("recommended_route", .str nodeId), ("candidate_routes", .list candidates),
    ("requires_manual_review", .bool true), ("real_road_route", .dict
      [("provider", .str "AMAP"), ("status", .str "CLIENT_MATCH_REQUIRED"),
        ("waypoints", .list [waypoint "N01" "103.044800" "25.226500", waypoint nodeId longitude latitude])])]

def routingCompleted : TaskEvent :=
  ⟨"1-0", "TASK-001", .routingCompleted, "routing", "PROCESSING", "2026-09-01T08:00:00+00:00", 7, none, none⟩

/-- The candidates alone do not show. -/
theorem same_data_iff_candidates :
    dataOf (project { routingCompleted with
        data := some (projectRoutingEvent (patchOver "N02" "103.032000" "25.232000" [])) }
          (some false) false) =
      dataOf (project { routingCompleted with
        data := some (projectRoutingEvent (patchOver "N02" "103.032000" "25.232000" [.dict []])) }
          (some false) false) := by
  refine (same_data_iff (fun key hkey => ?_) routingCompleted (by decide)).mpr (by decide +kernel)
  by_cases hcandidates : key = "candidate_routes"
  · subst hcandidates
    exact absurd (by decide) hkey
  · simp [patchOver, List.lookup_cons, beq_eq_false_iff_ne.mpr hcandidates]

/-- **A viewer who may not review tells two proposed routes apart** before either is published. -/
theorem proposed_route_shows :
    (∀ key, key ∉ proposedRouteKeys → (patchOver "N02" "103.032000" "25.232000" []).lookup key =
      (patchOver "N03" "103.057000" "25.239000" []).lookup key) ∧
    dataOf (project { routingCompleted with
        data := some (projectRoutingEvent (patchOver "N02" "103.032000" "25.232000" [])) }
          (some false) false) ≠
      dataOf (project { routingCompleted with
        data := some (projectRoutingEvent (patchOver "N03" "103.057000" "25.239000" [])) }
          (some false) false) := by
  refine ⟨fun key hkey => ?_, by decide +kernel⟩
  have hroute : key ≠ "recommended_route" := fun h => hkey (by rw [h]; decide)
  have hreal : key ≠ "real_road_route" := fun h => hkey (by rw [h]; decide)
  simp [patchOver, List.lookup_cons, beq_eq_false_iff_ne.mpr hroute, beq_eq_false_iff_ne.mpr hreal]

end CountyFlow.Events
