import CountyFlow.Road.Optimal

/-!
# What the path does not depend on

The best path is given by the edges and the nodes of the network as sets, so that it is the same whatever
their order; and where less can be passed, no path gets better.
-/

namespace CountyFlow.Road

open CountyFlow.Lib

/-- What a path says of the route, the count of visited nodes apart. -/
def PathResult.route (path : PathResult) : List String × List String × ℚ × ℤ × ℚ :=
  (path.nodeIds, path.edgeIds, path.distanceKm, path.estimatedMinutes, path.riskCost)

variable {edgeId a b b' : String} {edge : RoadEdgeSnapshot}

section Unique

variable {snapshot : RoadNetworkSnapshot} {vehicleWeightTons : ℚ} {excludedEdgeIds : List String}
  {objective : RouteObjective} {startNodeId endNodeId : String}

theorem edge?_eq_some_iff :
    snapshot.edge? edgeId = some edge ↔ edge ∈ snapshot.edges ∧ edge.edgeId = edgeId :=
  Table.find_eq_some_iff (t := ⟨snapshot.edges, snapshot.edgeIds_nodup⟩)

theorem joins_unique (h : edge.Joins a b) (h' : edge.Joins a b') : b = b' := by
  rcases h with ⟨hfrom, hto⟩ | ⟨-, hto, hfrom⟩ <;> rcases h' with ⟨hfrom', hto'⟩ | ⟨-, hto', hfrom'⟩
  · exact hto.symm.trans hto'
  · rw [← hto, hto', ← hfrom', hfrom]
  · rw [← hfrom, hfrom', ← hto', hto]
  · exact hfrom.symm.trans hfrom'

theorem passable_unique (h : Passable snapshot vehicleWeightTons excludedEdgeIds a edgeId b)
    (h' : Passable snapshot vehicleWeightTons excludedEdgeIds a edgeId b') : b = b' := by
  obtain ⟨edge, hedge, hid, -, hjoins⟩ := h
  obtain ⟨edge', hedge', hid', -, hjoins'⟩ := h'
  have hsame : some edge = some edge' :=
    (edge?_eq_some_iff.mpr ⟨hedge, hid⟩).symm.trans (edge?_eq_some_iff.mpr ⟨hedge', hid'⟩)
  cases hsame
  exact joins_unique hjoins hjoins'

theorem walk_nodes {ns es : List String}
    (h : Walk (Passable snapshot vehicleWeightTons excludedEdgeIds) startNodeId ns es b) {ns' : List String}
    (h' : Walk (Passable snapshot vehicleWeightTons excludedEdgeIds) startNodeId ns' es b') :
    ns = ns' ∧ b = b' := by
  induction h generalizing ns' b' with
  | start =>
    generalize hes : ([] : List String) = es at h'
    cases h' with
    | start => exact ⟨rfl, rfl⟩
    | snoc => simp at hes
  | @snoc ns es b c e _ hpass ih =>
    generalize hes : es ++ [e] = es' at h'
    cases h' with
    | start => simp at hes
    | @snoc ns₁ es₁ b₁ c₁ e₁ hwalk₁ hpass₁ =>
      obtain ⟨rfl, he⟩ := List.append_inj' hes rfl
      obtain rfl := List.singleton_inj.mp he
      obtain ⟨rfl, rfl⟩ := ih hwalk₁
      obtain rfl := passable_unique hpass hpass₁
      exact ⟨rfl, rfl⟩

theorem best_unique {path path' : PathResult}
    (h : Best snapshot objective vehicleWeightTons excludedEdgeIds startNodeId endNodeId path)
    (h' : Best snapshot objective vehicleWeightTons excludedEdgeIds startNodeId endNodeId path') :
    path.route = path'.route := by
  have hcost : snapshot.cost objective path.edgeIds = snapshot.cost objective path'.edgeIds :=
    le_antisymm (h.minimal _ _ h'.walk) (h'.minimal _ _ h.walk)
  have hedges : path.edgeIds = path'.edgeIds :=
    le_antisymm (h.least _ _ h'.walk hcost.symm) (h'.least _ _ h.walk hcost)
  have hnodes : path.nodeIds = path'.nodeIds := by
    have hwalk := h'.walk
    rw [← hedges] at hwalk
    exact (walk_nodes h.walk hwalk).1
  unfold PathResult.route
  rw [h.distanceKm, h'.distanceKm, h.estimatedMinutes, h'.estimatedMinutes, h.riskCost, h'.riskCost,
    hedges, hnodes]

end Unique

/-! ### The order of the nodes and edges -/

variable {fuel fuel' : ℕ} {result result' : Option PathResult}

section Order

variable {snapshot snapshot' : RoadNetworkSnapshot} {vehicleWeightTons : ℚ} {excludedEdgeIds : List String}
  {objective : RouteObjective} {startNodeId endNodeId : String}

theorem passable_perm (hedges : snapshot.edges.Perm snapshot'.edges) :
    Passable snapshot vehicleWeightTons excludedEdgeIds =
      Passable snapshot' vehicleWeightTons excludedEdgeIds := by
  funext a edgeId b
  simp only [Passable, hedges.mem_iff]

theorem edgeSum_perm (hedges : snapshot.edges.Perm snapshot'.edges) (f : RoadEdgeSnapshot → ℚ) :
    snapshot.edgeSum f = snapshot'.edgeSum f := by
  have hedge? : snapshot.edge? = snapshot'.edge? := by
    funext edgeId
    apply Option.ext
    intro edge
    rw [edge?_eq_some_iff, edge?_eq_some_iff, hedges.mem_iff]
  funext es
  simp only [RoadNetworkSnapshot.edgeSum, hedge?]

theorem apart_perm (hnodes : snapshot.nodes.Perm snapshot'.nodes)
    (hedges : snapshot.edges.Perm snapshot'.edges) :
    Apart snapshot vehicleWeightTons excludedEdgeIds startNodeId endNodeId ↔
      Apart snapshot' vehicleWeightTons excludedEdgeIds startNodeId endNodeId := by
  unfold Apart
  rw [hnodes.mem_iff, hnodes.mem_iff, passable_perm hedges]

theorem Best.perm (hedges : snapshot.edges.Perm snapshot'.edges) {path : PathResult}
    (h : Best snapshot' objective vehicleWeightTons excludedEdgeIds startNodeId endNodeId path) :
    Best snapshot objective vehicleWeightTons excludedEdgeIds startNodeId endNodeId path := by
  have hpassable : Passable snapshot vehicleWeightTons excludedEdgeIds =
      Passable snapshot' vehicleWeightTons excludedEdgeIds := passable_perm hedges
  have hcost : snapshot.cost objective = snapshot'.cost objective := edgeSum_perm hedges _
  refine ⟨?_, ?_, ?_, ?_, ?_, ?_, h.objective⟩
  · rw [hpassable]
    exact h.walk
  · rw [hpassable, hcost]
    exact h.minimal
  · rw [hpassable, hcost]
    exact h.least
  · rw [edgeSum_perm hedges]
    exact h.distanceKm
  · rw [edgeSum_perm hedges]
    exact h.estimatedMinutes
  · rw [edgeSum_perm hedges]
    exact h.riskCost

theorem find_perm (hpos : ∀ edge ∈ snapshot.edges, 0 < edge.weight objective)
    (hnodes : snapshot.nodes.Perm snapshot'.nodes) (hedges : snapshot.edges.Perm snapshot'.edges)
    (h : find fuel snapshot startNodeId endNodeId objective vehicleWeightTons excludedEdgeIds
      = some result)
    (h' : find fuel' snapshot' startNodeId endNodeId objective vehicleWeightTons excludedEdgeIds
      = some result') :
    result.map PathResult.route = result'.map PathResult.route := by
  have hpos' : ∀ edge ∈ snapshot'.edges, 0 < edge.weight objective :=
    fun edge hedge => hpos edge (hedges.mem_iff.mpr hedge)
  obtain ⟨hnone, hbest⟩ := find_best hpos h
  obtain ⟨hnone', hbest'⟩ := find_best hpos' h'
  have hsame : result = none ↔ result' = none := hnone.trans ((apart_perm hnodes hedges).trans hnone'.symm)
  cases result with
  | none => rw [hsame.mp rfl]
  | some path =>
    cases result' with
    | none => cases hsame.mpr rfl
    | some path' =>
      have hpath' := (hbest' path' rfl).perm hedges
      exact congrArg some (best_unique (hbest path rfl) hpath')

end Order

/-! ### Restrictions -/

section Restrictions

variable {snapshot : RoadNetworkSnapshot} {f : RoadEdgeSnapshot → EdgeStatus}
  {vehicleWeightTons vehicleWeightTons' : ℚ} {excludedEdgeIds excludedEdgeIds' : List String}
  {objective : RouteObjective} {startNodeId endNodeId : String}

theorem passable_of_restricted (hstatus : ∀ edge ∈ snapshot.edges, f edge = edge.status ∨ f edge = .blocked)
    (hweight : vehicleWeightTons ≤ vehicleWeightTons') (hexcluded : excludedEdgeIds ⊆ excludedEdgeIds')
    (h : Passable (snapshot.mapStatus f) vehicleWeightTons' excludedEdgeIds' a edgeId b) :
    Passable snapshot vehicleWeightTons excludedEdgeIds a edgeId b := by
  obtain ⟨edge', hedge', hid, havailable, hjoins⟩ := h
  obtain ⟨edge, hedge, rfl⟩ := List.mem_map.mp hedge'
  obtain ⟨hnot, hopen, hlimit⟩ := of_decide_eq_true havailable
  refine ⟨edge, hedge, hid, decide_eq_true ⟨fun hin => hnot (hexcluded hin), ?_, hweight.trans hlimit⟩,
    hjoins⟩
  rcases hstatus edge hedge with hsame | hblocked
  · rw [← hsame]
    exact hopen
  · exact absurd hblocked hopen

theorem edgeSum_mapStatus {g : RoadEdgeSnapshot → ℚ} (hg : ∀ edge, g { edge with status := f edge } = g edge)
    (es : List String) :
    (snapshot.mapStatus f).edgeSum g es = snapshot.edgeSum g es := by
  have hedge? (edgeId : String) : (snapshot.mapStatus f).edge? edgeId =
      (snapshot.edge? edgeId).map fun edge => { edge with status := f edge } := by
    simp only [RoadNetworkSnapshot.edge?, RoadNetworkSnapshot.mapStatus, List.find?_map]
    rfl
  unfold RoadNetworkSnapshot.edgeSum
  congr 1
  refine List.map_congr_left fun edgeId _ => ?_
  rw [hedge?]
  cases snapshot.edge? edgeId with
  | none => rfl
  | some edge => exact hg edge

theorem weight_status (edge : RoadEdgeSnapshot) (status : EdgeStatus) :
    ({ edge with status := status } : RoadEdgeSnapshot).weight objective = edge.weight objective := by
  cases objective <;> rfl

theorem cost_mapStatus (es : List String) :
    (snapshot.mapStatus f).cost objective es = snapshot.cost objective es :=
  edgeSum_mapStatus (fun edge => weight_status edge (f edge)) es

theorem pos_mapStatus (hpos : ∀ edge ∈ snapshot.edges, 0 < edge.weight objective) :
    ∀ edge ∈ (snapshot.mapStatus f).edges, 0 < edge.weight objective := by
  intro edge' hedge'
  obtain ⟨edge, hedge, rfl⟩ := List.mem_map.mp hedge'
  rw [weight_status]
  exact hpos edge hedge

theorem find_restricted (hpos : ∀ edge ∈ snapshot.edges, 0 < edge.weight objective)
    (hstatus : ∀ edge ∈ snapshot.edges, f edge = edge.status ∨ f edge = .blocked)
    (hweight : vehicleWeightTons ≤ vehicleWeightTons') (hexcluded : excludedEdgeIds ⊆ excludedEdgeIds')
    (h : find fuel snapshot startNodeId endNodeId objective vehicleWeightTons excludedEdgeIds
      = some result)
    (h' : find fuel' (snapshot.mapStatus f) startNodeId endNodeId objective vehicleWeightTons'
      excludedEdgeIds' = some result') :
    (result = none → result' = none) ∧ ∀ path ∈ result, ∀ path' ∈ result',
      snapshot.cost objective path.edgeIds ≤ (snapshot.mapStatus f).cost objective path'.edgeIds := by
  have hwalk {ns es : List String}
      (hw : Walk (Passable (snapshot.mapStatus f) vehicleWeightTons' excludedEdgeIds') startNodeId ns es
        endNodeId) :
      Walk (Passable snapshot vehicleWeightTons excludedEdgeIds) startNodeId ns es endNodeId :=
    hw.mono fun _ _ _ => passable_of_restricted hstatus hweight hexcluded
  obtain ⟨hnone, hbest⟩ := find_best hpos h
  obtain ⟨hnone', hbest'⟩ := find_best (pos_mapStatus hpos) h'
  refine ⟨fun hempty => hnone'.mpr ?_, fun path hpath path' hpath' => ?_⟩
  · rcases hnone.mp hempty with hstart | hend | hapart
    · exact .inl hstart
    · exact .inr (.inl hend)
    · exact .inr (.inr fun ⟨ns, es, hw⟩ => hapart ⟨ns, es, hwalk hw⟩)
  · rw [cost_mapStatus]
    exact (hbest path hpath).minimal _ _ (hwalk (hbest' path' hpath').walk)

end Restrictions

theorem find_both {snapshot snapshot' : RoadNetworkSnapshot} {objective : RouteObjective}
    (hpos : ∀ edge ∈ snapshot.edges, 0 < edge.weight objective)
    (hpos' : ∀ edge ∈ snapshot'.edges, 0 < edge.weight objective) (startNodeId endNodeId : String)
    (vehicleWeightTons vehicleWeightTons' : ℚ) (excludedEdgeIds excludedEdgeIds' : List String) :
    ∃ fuel result result', ∀ fuel' ≥ fuel,
      find fuel' snapshot startNodeId endNodeId objective vehicleWeightTons excludedEdgeIds =
        some result ∧
      find fuel' snapshot' startNodeId endNodeId objective vehicleWeightTons' excludedEdgeIds' =
        some result' := by
  obtain ⟨n, result, h⟩ := find_finishes fun edge hedge => (hpos edge hedge).le
  obtain ⟨n', result', h'⟩ := find_finishes fun edge hedge => (hpos' edge hedge).le
  refine ⟨max n n', result, result', fun fuel hle => ⟨h fuel ?_, h' fuel ?_⟩⟩
  · exact (le_max_left n n').trans hle
  · exact (le_max_right n n').trans hle

def turned : RoadNetworkSnapshot where
  version := 1
  nodes := ["C", "A", "B"]
  edges := [exampleEdge "E3" "C" "B" 1, exampleEdge "E2" "A" "B" 2, exampleEdge "E1" "C" "A" 1]
  edgeIds_nodup := by decide

/-- **Path search does not depend on the order of the network, and restrictions never help.** -/
theorem find_independent {snapshot : RoadNetworkSnapshot} {objective : RouteObjective}
    (hpos : ∀ edge ∈ snapshot.edges, 0 < edge.weight objective) (startNodeId endNodeId : String)
    (vehicleWeightTons : ℚ) (excludedEdgeIds : List String) :
    (∀ snapshot' : RoadNetworkSnapshot, snapshot.nodes.Perm snapshot'.nodes →
      snapshot.edges.Perm snapshot'.edges →
      ∃ fuel result result', (∀ fuel' ≥ fuel,
        find fuel' snapshot startNodeId endNodeId objective vehicleWeightTons excludedEdgeIds =
          some result ∧
        find fuel' snapshot' startNodeId endNodeId objective vehicleWeightTons excludedEdgeIds =
          some result') ∧
        result.map PathResult.route = result'.map PathResult.route) ∧
    ∀ (f : RoadEdgeSnapshot → EdgeStatus) (vehicleWeightTons' : ℚ) (excludedEdgeIds' : List String),
      (∀ edge ∈ snapshot.edges, f edge = edge.status ∨ f edge = .blocked) →
      vehicleWeightTons ≤ vehicleWeightTons' → excludedEdgeIds ⊆ excludedEdgeIds' →
      ∃ fuel result result', (∀ fuel' ≥ fuel,
        find fuel' snapshot startNodeId endNodeId objective vehicleWeightTons excludedEdgeIds =
          some result ∧
        find fuel' (snapshot.mapStatus f) startNodeId endNodeId objective vehicleWeightTons'
          excludedEdgeIds' = some result') ∧
        (result = none → result' = none) ∧ ∀ path ∈ result, ∀ path' ∈ result',
          snapshot.cost objective path.edgeIds ≤ (snapshot.mapStatus f).cost objective path'.edgeIds := by
  constructor
  · intro snapshot' hnodes hedges
    have hpos' : ∀ edge ∈ snapshot'.edges, 0 < edge.weight objective :=
      fun edge hedge => hpos edge (hedges.mem_iff.mpr hedge)
    obtain ⟨fuel, result, result', hboth⟩ := find_both hpos hpos' startNodeId endNodeId
      vehicleWeightTons vehicleWeightTons excludedEdgeIds excludedEdgeIds
    obtain ⟨h, h'⟩ := hboth fuel le_rfl
    exact ⟨fuel, result, result', hboth, find_perm hpos hnodes hedges h h'⟩
  · intro f vehicleWeightTons' excludedEdgeIds' hstatus hweight hexcluded
    obtain ⟨fuel, result, result', hboth⟩ := find_both hpos (pos_mapStatus hpos) startNodeId endNodeId
      vehicleWeightTons vehicleWeightTons' excludedEdgeIds excludedEdgeIds'
    obtain ⟨h, h'⟩ := hboth fuel le_rfl
    exact ⟨fuel, result, result', hboth, find_restricted hpos hstatus hweight hexcluded h h'⟩

/-- The triangle in another order, and without its cheaper road. -/
theorem find_independent_triangle :
    (∃ fuel result result', (∀ fuel' ≥ fuel,
      find fuel' triangle "A" "B" .shortest 2 [] = some result ∧
      find fuel' turned "A" "B" .shortest 2 [] = some result') ∧
      result.map PathResult.route = result'.map PathResult.route) ∧
    ∃ fuel result result', (∀ fuel' ≥ fuel,
      find fuel' triangle "A" "B" .shortest 2 [] = some result ∧
      find fuel' (triangle.mapStatus fun _ => .blocked) "A" "B" .shortest 3 ["E3"] = some result') ∧
      (result = none → result' = none) ∧ ∀ path ∈ result, ∀ path' ∈ result',
        triangle.cost .shortest path.edgeIds ≤
          (triangle.mapStatus fun _ => .blocked).cost .shortest path'.edgeIds := by
  have hpos : ∀ edge ∈ triangle.edges, 0 < edge.weight .shortest := by decide +kernel
  obtain ⟨horder, hrestricted⟩ := find_independent hpos "A" "B" 2 []
  refine ⟨horder turned (by decide +kernel) (by decide +kernel), ?_⟩
  exact hrestricted (fun _ => .blocked) 3 ["E3"] (fun _ _ => .inr rfl) (by norm_num) (by simp)

end CountyFlow.Road
