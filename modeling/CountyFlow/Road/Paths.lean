import CountyFlow.Road.Network

/-!
# What the path finder finds

A path is a walk along passable edges, from the start to the end.
-/

namespace CountyFlow.Road

open CountyFlow.Lib

variable {snapshot : RoadNetworkSnapshot} {vehicleWeightTons : ℚ} {excludedEdgeIds : List String}
  {objective : RouteObjective} {startNodeId endNodeId : String}

/-- An edge that the finder may take, from a node to another. -/
def RoadEdgeSnapshot.Joins (edge : RoadEdgeSnapshot) (a b : String) : Prop :=
  (edge.fromNodeId = a ∧ edge.toNodeId = b) ∨
    (edge.bidirectional = true ∧ edge.toNodeId = a ∧ edge.fromNodeId = b)

/-- A vehicle passes from a node to another along the edge of an id. -/
def Passable (snapshot : RoadNetworkSnapshot) (vehicleWeightTons : ℚ)
    (excludedEdgeIds : List String) (a edgeId b : String) : Prop :=
  ∃ edge ∈ snapshot.edges, edge.edgeId = edgeId ∧
    edge.isAvailable vehicleWeightTons excludedEdgeIds = true ∧ edge.Joins a b

theorem mem_adjacency {nodeId : String} {next : String × RoadEdgeSnapshot} :
    next ∈ snapshot.adjacency vehicleWeightTons excludedEdgeIds nodeId ↔
      next.2 ∈ snapshot.edges ∧ next.2.isAvailable vehicleWeightTons excludedEdgeIds = true ∧
        next.2.Joins nodeId next.1 := by
  unfold RoadNetworkSnapshot.adjacency
  rw [List.mem_insertionSort, List.mem_flatMap]
  constructor
  · rintro ⟨edge, hedge, hnext⟩
    obtain ⟨hmem, havailable⟩ := List.mem_filter.mp hedge
    rcases List.mem_append.mp hnext with hforward | hback
    · split at hforward
      · rename_i hfrom
        obtain rfl := List.mem_singleton.mp hforward
        exact ⟨hmem, havailable, .inl ⟨hfrom, rfl⟩⟩
      · cases hforward
    · split at hback
      · rename_i hto
        obtain rfl := List.mem_singleton.mp hback
        exact ⟨hmem, havailable, .inr ⟨hto.1, hto.2, rfl⟩⟩
      · cases hback
  · rintro ⟨hmem, havailable, hjoins⟩
    refine ⟨next.2, List.mem_filter.mpr ⟨hmem, havailable⟩, ?_⟩
    rcases hjoins with ⟨hfrom, hto⟩ | ⟨hboth, hto, hfrom⟩
    · refine List.mem_append_left _ ?_
      rw [if_pos hfrom, hto]
      exact List.mem_singleton.mpr rfl
    · refine List.mem_append_right _ ?_
      rw [if_pos ⟨hboth, hto⟩, hfrom]
      exact List.mem_singleton.mpr rfl

variable {fuel : ℕ} {path : PathResult}

theorem find_sound
    (h : find fuel snapshot startNodeId endNodeId objective vehicleWeightTons excludedEdgeIds
      = some (some path)) :
    Walk (Passable snapshot vehicleWeightTons excludedEdgeIds) startNodeId path.nodeIds path.edgeIds
      endNodeId := by
  unfold find at h
  split at h
  · cases h
  · split at h
    · rename_i heq
      cases h
      rw [← heq]
      exact .start
    · obtain ⟨result, hsearch, hpath⟩ := Option.map_eq_some_iff.mp h
      obtain ⟨⟨e, visited⟩, rfl, rfl⟩ := Option.map_eq_some_iff.mp hpath
      have hstep : ∀ b : Entry, Walk (Passable snapshot vehicleWeightTons excludedEdgeIds)
          startNodeId b.nodePath b.edgeIds b.nodeId → b.nodeId ≠ endNodeId →
          ∀ c ∈ (snapshot.space objective vehicleWeightTons excludedEdgeIds).successors b,
          Walk (Passable snapshot vehicleWeightTons excludedEdgeIds) startNodeId c.nodePath
            c.edgeIds c.nodeId := by
        intro b hb _ c hc
        obtain ⟨next, hnext, rfl⟩ := List.mem_map.mp hc
        obtain ⟨hmem, havailable, hjoins⟩ := mem_adjacency.mp hnext
        exact hb.snoc ⟨next.2, hmem, rfl, havailable, hjoins⟩
      obtain ⟨hwalk, hgoal⟩ := Space.search_sound hstep (fun x hx => by
        obtain rfl := List.mem_singleton.mp hx
        exact .start) hsearch
      have hend : e.nodeId = endNodeId := hgoal
      rw [hend] at hwalk
      exact hwalk

theorem find_short_iff
    (h : find fuel snapshot startNodeId endNodeId objective vehicleWeightTons excludedEdgeIds
      = some (some path)) : path.nodeIds.length < 2 ↔ startNodeId = endNodeId := by
  constructor
  · intro hshort
    have hwalk := find_sound h
    generalize path.nodeIds = ns, path.edgeIds = es, endNodeId = b at hwalk hshort
    cases hwalk with
    | start => rfl
    | snoc hwalk _ =>
      rw [List.length_append, hwalk.length, List.length_singleton] at hshort
      omega
  · rintro rfl
    unfold find at h
    split at h
    · cases h
    · rw [if_pos rfl] at h
      obtain rfl := Option.some.inj (Option.some.inj h)
      simp

theorem find_edge
    (h : find fuel snapshot startNodeId endNodeId objective vehicleWeightTons excludedEdgeIds
      = some (some path)) {edgeId : String} (hid : edgeId ∈ path.edgeIds) :
    ∃ edge, snapshot.edge? edgeId = some edge ∧ edge ∈ snapshot.edges ∧ edge.edgeId = edgeId ∧
      edgeId ∉ excludedEdgeIds ∧ edge.status ≠ .blocked ∧
      vehicleWeightTons ≤ edge.weightLimitTons := by
  obtain ⟨a, b, edge, hmem, rfl, havailable, -⟩ := (find_sound h).forall_edges hid
  obtain ⟨hexcluded, hstatus, hweight⟩ := of_decide_eq_true havailable
  exact ⟨edge, RoadNetworkSnapshot.edge?_of_mem hmem, hmem, rfl, hexcluded, hstatus, hweight⟩

end CountyFlow.Road
