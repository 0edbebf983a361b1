import CountyFlow.Road.Optimal

/-!
# The map draws the planned path

The map has only the edge ids of a route, and one of its ends.  It walks along the edges, forwards from the
start or backwards from the end, and takes from every edge the node at its other side.
-/

namespace CountyFlow.Road

open CountyFlow.Lib Function

/-! ### What the map draws -/

/-- An edge under its id, in the place of an earlier one. -/
def addEdge (byId : String → Option RoadEdgeSnapshot) (edge : RoadEdgeSnapshot) :
    String → Option RoadEdgeSnapshot :=
  update byId edge.edgeId (some edge)

/-- `edge_by_id` of `map_snapshot`. -/
def edgeById (edges : List RoadEdgeSnapshot) : String → Option RoadEdgeSnapshot :=
  edges.foldl addEdge fun _ => none

/-- The node at the other side of an edge; `from_node_id` is compared first. -/
def RoadEdgeSnapshot.across (edge : RoadEdgeSnapshot) (current : String) : Option String :=
  if edge.fromNodeId = current then some edge.toNodeId
  else if edge.toNodeId = current then some edge.fromNodeId
  else none

/-- The loop of `_ordered_route_nodes`: the nodes from `current` on, `none` where it answers with no node at
all. -/
def nodesAlong (byId : String → Option RoadEdgeSnapshot) : String → List String → Option (List String)
  | current, [] => some [current]
  | current, edgeId :: edgeIds => do
    let edge ← byId edgeId
    let next ← edge.across current
    let nodes ← nodesAlong byId next edgeIds
    return current :: nodes

def orderedRouteNodes (edgeIds : List String) (byId : String → Option RoadEdgeSnapshot)
    (startNodeId endNodeId : Option String) : List String :=
  let backwards := startNodeId.isNone && endNodeId.isSome
  let orderedEdges := if backwards then edgeIds.reverse else edgeIds
  match orderedEdges with
  | [] => []
  | firstId :: _ =>
    match byId firstId with
    | none => []
    | some first =>
      let current := (if backwards then endNodeId else startNodeId).getD first.fromNodeId
      let nodes := (nodesAlong byId current orderedEdges).getD []
      if backwards then nodes.reverse else nodes

/-! ### The edges by their ids -/

variable {edges : List RoadEdgeSnapshot}

theorem edgeById_keeps {edgeId : String} (h : edgeId ∉ edges.map RoadEdgeSnapshot.edgeId)
    (byId : String → Option RoadEdgeSnapshot) : edges.foldl addEdge byId edgeId = byId edgeId := by
  induction edges generalizing byId with
  | nil => rfl
  | cons edge edges ih =>
    rw [List.map_cons, List.mem_cons, not_or] at h
    rw [List.foldl_cons, ih h.2, addEdge, update_of_ne h.1]

variable {edge : RoadEdgeSnapshot}

theorem edgeById_of_mem (hnodup : (edges.map RoadEdgeSnapshot.edgeId).Nodup)
    (h : edge ∈ edges) : edgeById edges edge.edgeId = some edge := by
  unfold edgeById
  generalize (fun _ => none : String → Option RoadEdgeSnapshot) = byId
  induction edges generalizing byId with
  | nil => cases h
  | cons first rest ih =>
    obtain ⟨hnew, hrest⟩ := List.nodup_cons.mp hnodup
    rw [List.foldl_cons]
    rcases List.mem_cons.mp h with rfl | hin
    · rw [edgeById_keeps hnew, addEdge, update_self]
    · exact ih hrest hin _

/-! ### Along a walk -/

variable {a b : String}

theorem RoadEdgeSnapshot.Joins.across (h : edge.Joins a b) :
    edge.across a = some b ∧ edge.across b = some a := by
  unfold RoadEdgeSnapshot.across
  rcases h with ⟨rfl, rfl⟩ | ⟨-, rfl, rfl⟩
  · by_cases hloop : edge.fromNodeId = edge.toNodeId
    · simp [hloop]
    · simp [hloop]
  · by_cases hloop : edge.fromNodeId = edge.toNodeId
    · simp [hloop]
    · simp [hloop]

/-- The map gets from one node to the next along the edge of an id. -/
def Leads (byId : String → Option RoadEdgeSnapshot) (a edgeId b : String) : Prop :=
  ∃ edge, byId edgeId = some edge ∧ edge.across a = some b

variable {byId : String → Option RoadEdgeSnapshot}

variable {ns es : List String}

theorem nodesAlong_of_walk (h : Walk (Leads byId) a ns es b) : nodesAlong byId a es = some ns := by
  induction es generalizing a ns with
  | nil =>
    obtain ⟨rfl, rfl⟩ := h.nil
    rfl
  | cons edgeId es ih =>
    obtain ⟨x, ns', ⟨edge, hedge, hacross⟩, rfl, hrest⟩ := h.uncons
    simp [nodesAlong, hedge, hacross, ih hrest]

theorem Leads.first (h : Walk (Leads byId) a ns es b)
    (hne : es ≠ []) : ∃ firstId rest first, es = firstId :: rest ∧ byId firstId = some first := by
  obtain ⟨firstId, rest, rfl⟩ := List.exists_cons_of_ne_nil hne
  obtain ⟨x, ns', ⟨first, hfirst, -⟩, -⟩ := h.uncons
  exact ⟨firstId, rest, first, rfl, hfirst⟩

theorem orderedRouteNodes_forwards (h : Walk (Leads byId) a ns es b) (hne : es ≠ []) :
    orderedRouteNodes es byId (some a) none = ns := by
  obtain ⟨firstId, rest, first, rfl, hfirst⟩ := Leads.first h hne
  simp [orderedRouteNodes, hfirst, nodesAlong_of_walk h]

theorem orderedRouteNodes_backwards (h : Walk (fun x edgeId y => Leads byId y edgeId x) a ns es b)
    (hne : es ≠ []) : orderedRouteNodes es byId none (some b) = ns := by
  have hback := h.reverse
  obtain ⟨firstId, rest, first, hes, hfirst⟩ := Leads.first hback (by simpa using hne)
  have hnodes := nodesAlong_of_walk hback
  rw [hes] at hnodes
  simp [orderedRouteNodes, hes, hfirst, hnodes]

/-! ### Along a path of the finder -/

/-- **The map draws the path the finder has planned**, whichever end it is given, and in whatever order it
has read the edges. -/
theorem drawn_as_planned {fuel : ℕ} {snapshot : RoadNetworkSnapshot} {startNodeId endNodeId : String}
    {objective : RouteObjective} {vehicleWeightTons : ℚ} {excludedEdgeIds : List String} {path : PathResult}
    (h : find fuel snapshot startNodeId endNodeId objective vehicleWeightTons excludedEdgeIds
      = some (some path)) (hne : path.edgeIds ≠ []) {edges : List RoadEdgeSnapshot}
    (hedges : edges.Perm snapshot.edges) :
    orderedRouteNodes path.edgeIds (edgeById edges) (some startNodeId) none = path.nodeIds ∧
      orderedRouteNodes path.edgeIds (edgeById edges) none (some endNodeId) = path.nodeIds := by
  have hnodup : (edges.map RoadEdgeSnapshot.edgeId).Nodup :=
    (hedges.map _).nodup_iff.mpr snapshot.edgeIds_nodup
  have hleads : ∀ a edgeId b, Passable snapshot vehicleWeightTons excludedEdgeIds a edgeId b →
      Leads (edgeById edges) a edgeId b ∧ Leads (edgeById edges) b edgeId a := by
    intro a edgeId b hpass
    obtain ⟨edge, hedge, rfl, -, hjoins⟩ := hpass
    have hfound := edgeById_of_mem hnodup (hedges.mem_iff.mpr hedge)
    exact ⟨⟨edge, hfound, hjoins.across.1⟩, ⟨edge, hfound, hjoins.across.2⟩⟩
  have hwalk := find_sound h
  constructor
  · exact orderedRouteNodes_forwards (hwalk.mono fun a edgeId b hpass => (hleads a edgeId b hpass).1) hne
  · exact orderedRouteNodes_backwards (hwalk.mono fun a edgeId b hpass => (hleads a edgeId b hpass).2) hne

/-- The way over C, drawn from A and from B. -/
theorem drawn_as_planned_triangle :
    orderedRouteNodes ["E1", "E3"] (edgeById triangle.edges.reverse) (some "A") none = ["A", "C", "B"] ∧
      orderedRouteNodes ["E1", "E3"] (edgeById triangle.edges.reverse) none (some "B") = ["A", "C", "B"] := by
  have h : find 5 triangle "A" "B" .shortest 2 [] =
      some (some ⟨.shortest, ["A", "C", "B"], ["E1", "E3"], 2, 9, 8, 3⟩) := by
    decide +kernel
  exact drawn_as_planned h (by simp) (List.reverse_perm _)

end CountyFlow.Road
