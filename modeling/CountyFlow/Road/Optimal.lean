import Mathlib.Algebra.Order.BigOperators.Group.List
import CountyFlow.Lib.BestFirst
import CountyFlow.Road.Paths

/-!
# The path finder finds the best path

A label is the cost of a path and its edges; of two paths of one cost the one whose edges come first is the
better one.  With positive weights no path costs as much as one of its proper parts, so that what is better
stays better behind one more edge.
-/

namespace CountyFlow.Road

open CountyFlow.Lib

/-! ### Sums over the edges of a path -/

/-- What a path adds up to. -/
def RoadNetworkSnapshot.edgeSum (snapshot : RoadNetworkSnapshot) (f : RoadEdgeSnapshot → ℚ)
    (edgeIds : List String) : ℚ :=
  (edgeIds.map fun edgeId => (snapshot.edge? edgeId).elim 0 f).sum

def RoadNetworkSnapshot.cost (snapshot : RoadNetworkSnapshot) (objective : RouteObjective)
    (edgeIds : List String) : ℚ :=
  snapshot.edgeSum (fun edge => edge.weight objective) edgeIds

section Sums

variable {snapshot : RoadNetworkSnapshot} {f : RoadEdgeSnapshot → ℚ}

theorem edgeSum_append (es es' : List String) :
    snapshot.edgeSum f (es ++ es') = snapshot.edgeSum f es + snapshot.edgeSum f es' := by
  simp [RoadNetworkSnapshot.edgeSum]

theorem edgeSum_singleton {edge : RoadEdgeSnapshot} (h : edge ∈ snapshot.edges) :
    snapshot.edgeSum f [edge.edgeId] = f edge := by
  simp [RoadNetworkSnapshot.edgeSum, RoadNetworkSnapshot.edge?_of_mem h]

theorem edgeSum_pos (hpos : ∀ edge ∈ snapshot.edges, 0 < f edge) {es : List String} (hne : es ≠ [])
    (hes : ∀ id ∈ es, ∃ edge ∈ snapshot.edges, edge.edgeId = id) : 0 < snapshot.edgeSum f es := by
  unfold RoadNetworkSnapshot.edgeSum
  apply List.sum_pos
  · intro x hx
    obtain ⟨id, hid, rfl⟩ := List.mem_map.mp hx
    obtain ⟨edge, hedge, rfl⟩ := hes id hid
    rw [RoadNetworkSnapshot.edge?_of_mem hedge]
    exact hpos edge hedge
  · simpa using hne

end Sums

/-! ### The order of paths -/

theorem append_lt_append {as bs : List String} (h : as < bs) (hpart : ¬ as <+: bs) (cs ds : List String) :
    as ++ cs < bs ++ ds := by
  have hlex : List.Lex (· < ·) as bs := h
  induction hlex with
  | nil => exact absurd (List.nil_prefix ..) hpart
  | rel hlt => exact List.Lex.rel hlt
  | @cons a as bs hrest ih =>
    refine List.Lex.cons (ih hrest fun hfront => hpart ?_)
    exact (List.cons_prefix_cons).mpr ⟨rfl, hfront⟩

variable {a b : Entry}

theorem key_lt_iff : a.key < b.key ↔ a.cost < b.cost ∨ a.cost = b.cost ∧ a.edgeIds < b.edgeIds := by
  unfold Entry.key
  rw [Prod.Lex.toLex_lt_toLex]

theorem key_le_iff : a.key ≤ b.key ↔ a.cost < b.cost ∨ a.cost = b.cost ∧ a.edgeIds ≤ b.edgeIds := by
  unfold Entry.key
  rw [Prod.Lex.toLex_le_toLex]

theorem tuple_lt (h : a.key < b.key) : a.tuple < b.tuple := by
  unfold Entry.tuple
  rw [Prod.Lex.toLex_lt_toLex]
  rcases key_lt_iff.mp h with hcost | ⟨hcost, hedges⟩
  · exact .inl hcost
  · exact .inr ⟨hcost, Prod.Lex.toLex_lt_toLex.mpr (.inl hedges)⟩

/-! ### What an entry stands for -/

variable {e : Entry} {fuel : ℕ} {result : Option PathResult}

section Entries

variable {snapshot : RoadNetworkSnapshot} {vehicleWeightTons : ℚ} {excludedEdgeIds : List String}
  {objective : RouteObjective} {startNodeId endNodeId : String}

/-- **An entry is the label of a path.** -/
structure Labels (snapshot : RoadNetworkSnapshot) (objective : RouteObjective) (vehicleWeightTons : ℚ)
    (excludedEdgeIds : List String) (startNodeId : String) (e : Entry) : Prop where
  walk : Walk (Passable snapshot vehicleWeightTons excludedEdgeIds) startNodeId e.nodePath e.edgeIds
    e.nodeId
  cost : e.cost = snapshot.cost objective e.edgeIds
  distance : e.distanceKm = snapshot.edgeSum RoadEdgeSnapshot.distanceKm e.edgeIds
  risk : e.riskCost = snapshot.edgeSum RoadEdgeSnapshot.riskPenalty e.edgeIds

theorem labels_first : Labels snapshot objective vehicleWeightTons excludedEdgeIds startNodeId
    (.first startNodeId) :=
  ⟨.start, rfl, rfl, rfl⟩

theorem Labels.follow (h : Labels snapshot objective vehicleWeightTons excludedEdgeIds startNodeId e)
    {next : String × RoadEdgeSnapshot}
    (hnext : next ∈ snapshot.adjacency vehicleWeightTons excludedEdgeIds e.nodeId) :
    Labels snapshot objective vehicleWeightTons excludedEdgeIds startNodeId (e.follow objective next) := by
  obtain ⟨hmem, havailable, hjoins⟩ := mem_adjacency.mp hnext
  refine ⟨h.walk.snoc ⟨next.2, hmem, rfl, havailable, hjoins⟩, ?_, ?_, ?_⟩
  · show e.cost + next.2.weight objective = snapshot.edgeSum _ (e.edgeIds ++ [next.2.edgeId])
    rw [edgeSum_append, edgeSum_singleton hmem, h.cost]
    rfl
  · show e.distanceKm + next.2.distanceKm = snapshot.edgeSum _ (e.edgeIds ++ [next.2.edgeId])
    rw [edgeSum_append, edgeSum_singleton hmem, h.distance]
  · show e.riskCost + next.2.riskPenalty = snapshot.edgeSum _ (e.edgeIds ++ [next.2.edgeId])
    rw [edgeSum_append, edgeSum_singleton hmem, h.risk]

theorem Labels.edges (h : Labels snapshot objective vehicleWeightTons excludedEdgeIds startNodeId e)
    {id : String} (hid : id ∈ e.edgeIds) : ∃ edge ∈ snapshot.edges, edge.edgeId = id := by
  obtain ⟨a, b, edge, hedge, rfl, -⟩ := h.walk.forall_edges hid
  exact ⟨edge, hedge, rfl⟩

theorem graded (hnonneg : ∀ edge ∈ snapshot.edges, 0 ≤ edge.weight objective) :
    (snapshot.space objective vehicleWeightTons excludedEdgeIds).Graded
      (Labels snapshot objective vehicleWeightTons excludedEdgeIds startNodeId) := by
  refine ⟨fun e he c hc => ?_, fun e he c hc => ?_, fun a b => tuple_lt⟩
  · obtain ⟨next, hnext, rfl⟩ := List.mem_map.mp hc
    exact he.follow hnext
  · obtain ⟨next, hnext, rfl⟩ := List.mem_map.mp hc
    have hweight := hnonneg next.2 (mem_adjacency.mp hnext).1
    refine key_lt_iff.mpr ?_
    rcases hweight.lt_or_eq with hlt | heq
    · exact .inl (lt_add_of_pos_right e.cost hlt)
    · refine .inr ⟨by simp [Entry.follow, ← heq], ?_⟩
      have hlonger : e.edgeIds ++ [] < e.edgeIds ++ [next.2.edgeId] :=
        List.append_left_lt (List.nil_lt_cons _ _)
      rw [List.append_nil] at hlonger
      exact hlonger

theorem exchanges (hpos : ∀ edge ∈ snapshot.edges, 0 < edge.weight objective) :
    (snapshot.space objective vehicleWeightTons excludedEdgeIds).Exchanges
      (Labels snapshot objective vehicleWeightTons excludedEdgeIds startNodeId) := by
  intro a b ha hb hnode hle c hc
  obtain ⟨next, hnext, rfl⟩ := List.mem_map.mp hc
  have hnode : a.nodeId = b.nodeId := hnode
  have hnext' : next ∈ snapshot.adjacency vehicleWeightTons excludedEdgeIds a.nodeId := by
    rw [hnode]
    exact hnext
  refine ⟨a.follow objective next, List.mem_map.mpr ⟨next, hnext', rfl⟩, rfl, ?_⟩
  apply key_le_iff.mpr
  rcases key_le_iff.mp hle with hcost | ⟨hcost, hedges⟩
  · exact .inl (add_lt_add_left hcost (next.2.weight objective))
  · refine .inr ⟨congrArg (· + next.2.weight objective) hcost, ?_⟩
    rcases hedges.lt_or_eq with hlt | heq
    · -- a path is no proper part of another one of its cost
      have hpart : ¬ a.edgeIds <+: b.edgeIds := by
        rintro ⟨rest, hrest⟩
        have hne : rest ≠ [] := by
          rintro rfl
          rw [List.append_nil] at hrest
          exact absurd hrest hlt.ne
        have hmore : 0 < snapshot.cost objective rest := by
          refine edgeSum_pos hpos hne fun id hid => hb.edges ?_
          rw [← hrest]
          exact List.mem_append_right _ hid
        have hsum : b.cost = a.cost + snapshot.cost objective rest := by
          rw [hb.cost, ha.cost, ← hrest]
          exact edgeSum_append _ _
        linarith
      exact (append_lt_append hlt hpart _ _).le
    · show a.edgeIds ++ _ ≤ b.edgeIds ++ _
      rw [heq]

theorem reached_of_walk {ns es : List String} {nodeId : String}
    (h : Walk (Passable snapshot vehicleWeightTons excludedEdgeIds) startNodeId ns es nodeId) :
    ∃ e, (snapshot.space objective vehicleWeightTons excludedEdgeIds).Reached (.first startNodeId) e ∧
      e.nodePath = ns ∧ e.edgeIds = es ∧ e.nodeId = nodeId := by
  induction h with
  | start => exact ⟨.first startNodeId, .start, rfl, rfl, rfl⟩
  | @snoc ns es b c edgeId _ hpass ih =>
    obtain ⟨e, he, rfl, rfl, rfl⟩ := ih
    obtain ⟨edge, hmem, rfl, havailable, hjoins⟩ := hpass
    have hnext : (c, edge) ∈ snapshot.adjacency vehicleWeightTons excludedEdgeIds e.nodeId :=
      mem_adjacency.mpr ⟨hmem, havailable, hjoins⟩
    exact ⟨e.follow objective (c, edge), he.next (List.mem_map.mpr ⟨_, hnext, rfl⟩), rfl, rfl, rfl⟩

theorem Labels.node_mem (h : Labels snapshot objective vehicleWeightTons excludedEdgeIds startNodeId e) :
    e.nodeId ∈ startNodeId :: snapshot.edges.flatMap fun edge => [edge.fromNodeId, edge.toNodeId] := by
  obtain ⟨hwalk, -⟩ := h
  generalize e.nodePath = ns, e.edgeIds = es, e.nodeId = nodeId at hwalk
  cases hwalk with
  | start => exact List.mem_cons_self ..
  | snoc _ hpass =>
    obtain ⟨edge, hmem, -, -, hjoins⟩ := hpass
    refine List.mem_cons_of_mem _ (List.mem_flatMap.mpr ⟨edge, hmem, ?_⟩)
    rcases hjoins with ⟨-, rfl⟩ | ⟨-, -, rfl⟩ <;> simp

/-! ### The path that is found -/

/-- **The best path**: no other one costs less, and of those that cost as much it has the least edges in the
lexicographic order; what is said of it are the sums over its edges. -/
structure Best (snapshot : RoadNetworkSnapshot) (objective : RouteObjective) (vehicleWeightTons : ℚ)
    (excludedEdgeIds : List String) (startNodeId endNodeId : String) (path : PathResult) : Prop where
  walk : Walk (Passable snapshot vehicleWeightTons excludedEdgeIds) startNodeId path.nodeIds path.edgeIds
    endNodeId
  minimal : ∀ ns es, Walk (Passable snapshot vehicleWeightTons excludedEdgeIds) startNodeId ns es endNodeId →
    snapshot.cost objective path.edgeIds ≤ snapshot.cost objective es
  least : ∀ ns es, Walk (Passable snapshot vehicleWeightTons excludedEdgeIds) startNodeId ns es endNodeId →
    snapshot.cost objective es = snapshot.cost objective path.edgeIds → path.edgeIds ≤ es
  distanceKm : path.distanceKm = quantize 2 (snapshot.edgeSum RoadEdgeSnapshot.distanceKm path.edgeIds)
  estimatedMinutes : path.estimatedMinutes = ⌈snapshot.edgeSum RoadEdgeSnapshot.minutes path.edgeIds⌉
  riskCost : path.riskCost = snapshot.edgeSum RoadEdgeSnapshot.riskPenalty path.edgeIds
  objective : path.objective = objective

def Apart (snapshot : RoadNetworkSnapshot) (vehicleWeightTons : ℚ) (excludedEdgeIds : List String)
    (startNodeId endNodeId : String) : Prop :=
  startNodeId ∉ snapshot.nodes ∨ endNodeId ∉ snapshot.nodes ∨
    ¬ ∃ ns es, Walk (Passable snapshot vehicleWeightTons excludedEdgeIds) startNodeId ns es endNodeId

theorem searching_first :
    (snapshot.space objective vehicleWeightTons excludedEdgeIds).Searching
      (Labels snapshot objective vehicleWeightTons excludedEdgeIds startNodeId) endNodeId
      (.first startNodeId)
      ((snapshot.space objective vehicleWeightTons excludedEdgeIds).frontier (.first startNodeId)) []
      (Entry.first startNodeId).key :=
  Space.searching_frontier labels_first

theorem find_finishes (hnonneg : ∀ edge ∈ snapshot.edges, 0 ≤ edge.weight objective) :
    ∃ fuel result, ∀ fuel' ≥ fuel, find fuel' snapshot startNodeId endNodeId objective vehicleWeightTons
      excludedEdgeIds = some result := by
  by_cases hnodes : startNodeId ∉ snapshot.nodes ∨ endNodeId ∉ snapshot.nodes
  · exact ⟨0, none, fun _ _ => if_pos hnodes⟩
  · by_cases hsame : startNodeId = endNodeId
    · exact ⟨0, some ⟨objective, [startNodeId], [], 0, 0, 0, 0⟩,
        fun _ _ => by rw [find, if_neg hnodes, if_pos hsame]⟩
    · obtain ⟨fuel, result, hsearch⟩ : ∃ fuel result,
          (snapshot.space objective vehicleWeightTons excludedEdgeIds).search endNodeId fuel
            ((snapshot.space objective vehicleWeightTons excludedEdgeIds).frontier (.first startNodeId)) =
          some result :=
        Space.search_total (graded hnonneg) (fun e he => he.node_mem) searching_first
      refine ⟨fuel, result.map fun x => snapshot.pathOf objective x.1 x.2, fun fuel' hle => ?_⟩
      rw [find, if_neg hnodes, if_neg hsame]
      simp only [Space.search_mono hle hsearch]
      rfl

theorem best_here (hpos : ∀ edge ∈ snapshot.edges, 0 < edge.weight objective) :
    Best snapshot objective vehicleWeightTons excludedEdgeIds startNodeId startNodeId
      ⟨objective, [startNodeId], [], 0, 0, 0, 0⟩ := by
  refine ⟨.start, fun ns es h => ?_, fun ns es _ _ => not_lt.mp (List.not_lt_nil es), ?_, ?_, rfl, rfl⟩
  · show 0 ≤ snapshot.cost objective es
    rcases eq_or_ne es [] with rfl | hne
    · exact le_rfl
    · refine (edgeSum_pos hpos hne fun id hid => ?_).le
      obtain ⟨a, b, edge, hedge, rfl, -⟩ := h.forall_edges hid
      exact ⟨edge, hedge, rfl⟩
  · show (0 : ℚ) = quantize 2 0
    norm_num [quantize]
  · show (0 : ℤ) = ⌈(0 : ℚ)⌉
    simp

theorem labels_le (hpos : ∀ edge ∈ snapshot.edges, 0 < edge.weight objective) {result : Option (Entry × ℕ)}
    (h : (snapshot.space objective vehicleWeightTons excludedEdgeIds).search endNodeId fuel
      ((snapshot.space objective vehicleWeightTons excludedEdgeIds).frontier (.first startNodeId)) =
        some result) {ns es : List String}
    (hwalk : Walk (Passable snapshot vehicleWeightTons excludedEdgeIds) startNodeId ns es endNodeId) :
    ∃ e n, result = some (e, n) ∧ (e.cost < snapshot.cost objective es ∨
      e.cost = snapshot.cost objective es ∧ e.edgeIds ≤ es) := by
  have hgraded : (snapshot.space objective vehicleWeightTons excludedEdgeIds).Graded
      (Labels snapshot objective vehicleWeightTons excludedEdgeIds startNodeId) :=
    graded fun edge hedge => (hpos edge hedge).le
  obtain ⟨x, hx, -, rfl, hend⟩ := reached_of_walk hwalk
  obtain ⟨e, n, hresult, hle⟩ :=
    Space.search_best hgraded (exchanges hpos) labels_first searching_first h hx hend
  have hcost := (hx.prop hgraded labels_first).cost
  rw [← hcost]
  exact ⟨e, n, hresult, key_le_iff.mp hle⟩

theorem best_pathOf (hpos : ∀ edge ∈ snapshot.edges, 0 < edge.weight objective) {n : ℕ}
    (h : (snapshot.space objective vehicleWeightTons excludedEdgeIds).search endNodeId fuel
      ((snapshot.space objective vehicleWeightTons excludedEdgeIds).frontier (.first startNodeId)) =
        some (some (e, n))) :
    Best snapshot objective vehicleWeightTons excludedEdgeIds startNodeId endNodeId
      (snapshot.pathOf objective e n) := by
  obtain ⟨hlabels, hend⟩ := Space.search_sound
    (fun b hb _ c hc => (graded fun edge hedge => (hpos edge hedge).le).next b hb c hc)
    (fun x hx => by
      obtain rfl := List.mem_singleton.mp hx
      exact labels_first) h
  have hwalk := hlabels.walk
  rw [show e.nodeId = endNodeId from hend] at hwalk
  have hle {ns es : List String}
      (h' : Walk (Passable snapshot vehicleWeightTons excludedEdgeIds) startNodeId ns es endNodeId) :
      e.cost < snapshot.cost objective es ∨ e.cost = snapshot.cost objective es ∧ e.edgeIds ≤ es := by
    obtain ⟨e', n', hsame, hle⟩ := labels_le hpos h h'
    cases hsame
    exact hle
  have hcost : e.cost = snapshot.cost objective e.edgeIds := hlabels.cost
  refine ⟨hwalk, fun ns es h' => ?_, fun ns es h' hsame => ?_, ?_, rfl, hlabels.risk, rfl⟩
  · show snapshot.cost objective e.edgeIds ≤ _
    rw [← hcost]
    rcases hle h' with hlt | ⟨heq, -⟩
    · exact hlt.le
    · exact heq.le
  · have hsame : snapshot.cost objective es = e.cost := hsame.trans hcost.symm
    rcases hle h' with hlt | ⟨-, hedges⟩
    · exact absurd hsame hlt.ne'
    · exact hedges
  · show quantize 2 e.distanceKm = quantize 2 _
    rw [hlabels.distance]
    rfl

theorem find_best (hpos : ∀ edge ∈ snapshot.edges, 0 < edge.weight objective)
    (h : find fuel snapshot startNodeId endNodeId objective vehicleWeightTons excludedEdgeIds
      = some result) :
    (result = none ↔ Apart snapshot vehicleWeightTons excludedEdgeIds startNodeId endNodeId) ∧
      ∀ path ∈ result,
        Best snapshot objective vehicleWeightTons excludedEdgeIds startNodeId endNodeId path := by
  unfold find at h
  split at h
  · rename_i hnodes
    cases h
    exact ⟨iff_of_true rfl (by unfold Apart; rw [← or_assoc]; exact .inl hnodes), fun _ hp => by cases hp⟩
  · rename_i hnodes
    have hapart : Apart snapshot vehicleWeightTons excludedEdgeIds startNodeId endNodeId ↔
        ¬ ∃ ns es, Walk (Passable snapshot vehicleWeightTons excludedEdgeIds) startNodeId ns es
          endNodeId := by
      unfold Apart
      rw [← or_assoc, or_iff_right hnodes]
    rw [hapart]
    split at h
    · rename_i hsame
      subst hsame
      cases h
      refine ⟨iff_of_false (by simp) fun hnone => hnone ⟨_, _, .start⟩, fun path hpath => ?_⟩
      cases hpath
      exact best_here hpos
    · obtain ⟨found, hsearch, rfl⟩ := Option.map_eq_some_iff.mp h
      cases found with
      | none =>
        refine ⟨iff_of_true rfl ?_, fun path hpath => by cases hpath⟩
        rintro ⟨ns, es, hwalk⟩
        obtain ⟨e, n, hnone, -⟩ := labels_le hpos hsearch hwalk
        cases hnone
      | some x =>
        obtain ⟨e, n⟩ := x
        have hbest := best_pathOf hpos hsearch
        refine ⟨iff_of_false (by simp) fun hnone => hnone ⟨_, _, hbest.walk⟩, fun path hpath => ?_⟩
        cases hpath
        exact hbest

/-- **The path finder is correct**: the search ends, answers `None` exactly when there is no path, and
otherwise with the best one. -/
theorem find_correct (hpos : ∀ edge ∈ snapshot.edges, 0 < edge.weight objective) :
    ∃ fuel result,
      (∀ fuel' ≥ fuel, find fuel' snapshot startNodeId endNodeId objective vehicleWeightTons
        excludedEdgeIds = some result) ∧
      (result = none ↔ Apart snapshot vehicleWeightTons excludedEdgeIds startNodeId endNodeId) ∧
      ∀ path ∈ result,
        Best snapshot objective vehicleWeightTons excludedEdgeIds startNodeId endNodeId path := by
  obtain ⟨fuel, result, hresult⟩ := find_finishes fun edge hedge => (hpos edge hedge).le
  exact ⟨fuel, result, hresult, find_best hpos (hresult fuel le_rfl)⟩

theorem find_none_iff
    (h : find fuel snapshot startNodeId endNodeId objective vehicleWeightTons excludedEdgeIds
      = some result) :
    result = none ↔ Apart snapshot vehicleWeightTons excludedEdgeIds startNodeId endNodeId := by
  constructor
  · rintro rfl
    unfold find at h
    split at h
    · rename_i hnodes
      unfold Apart
      rw [← or_assoc]
      exact .inl hnodes
    · split at h
      · cases h
      · obtain ⟨found, hsearch, hfound⟩ := Option.map_eq_some_iff.mp h
        obtain rfl := Option.map_eq_none_iff.mp hfound
        refine .inr (.inr ?_)
        rintro ⟨ns, es, hwalk⟩
        obtain ⟨x, hx, -, -, hend⟩ := reached_of_walk hwalk
        have hlocal : (snapshot.space objective vehicleWeightTons excludedEdgeIds).Local := by
          intro a b hnode c hc
          obtain ⟨next, hnext, rfl⟩ := List.mem_map.mp hc
          have hnode : a.nodeId = b.nodeId := hnode
          rw [hnode] at hnext
          exact ⟨b.follow objective next, List.mem_map.mpr ⟨next, hnext, rfl⟩, rfl⟩
        exact Space.search_none hlocal Space.exploring_frontier hsearch hx hend
  · intro hapart
    cases hresult : result with
    | none => rfl
    | some path =>
      rw [hresult] at h
      rcases hapart with hstart | hend | hnone
      · rw [find, if_pos (.inl hstart)] at h
        cases h
      · rw [find, if_pos (.inr hend)] at h
        cases h
      · exact absurd ⟨_, _, find_sound h⟩ hnone

end Entries

/-! ### A tie -/

def exampleEdge (edgeId fromNodeId toNodeId : String) (distanceKm : ℚ) : RoadEdgeSnapshot where
  edgeId := edgeId
  fromNodeId := fromNodeId
  toNodeId := toNodeId
  distanceKm := distanceKm
  baseMinutes := 3
  riskLevel := .medium
  status := .open
  congestionFactor := 3 / 2
  weightLimitTons := 10
  bidirectional := true

/-- The way from A to B over C is as long as the direct one. -/
def triangle : RoadNetworkSnapshot where
  version := 1
  nodes := ["A", "B", "C"]
  edges := [exampleEdge "E2" "A" "B" 2, exampleEdge "E1" "C" "A" 1, exampleEdge "E3" "C" "B" 1]
  edgeIds_nodup := by decide

example : find 5 triangle "A" "B" .shortest 2 [] =
    some (some ⟨.shortest, ["A", "C", "B"], ["E1", "E3"], 2, 9, 8, 3⟩) := by
  decide +kernel

/-- The finder is correct on the triangle. -/
theorem find_correct_triangle :
    ∃ fuel result,
      (∀ fuel' ≥ fuel, find fuel' triangle "A" "B" .shortest 2 [] = some result) ∧
      (result = none ↔ Apart triangle 2 [] "A" "B") ∧
      ∀ path ∈ result, Best triangle .shortest 2 [] "A" "B" path := by
  have hpos : ∀ edge ∈ triangle.edges, 0 < edge.weight .shortest := by decide +kernel
  exact find_correct hpos

end CountyFlow.Road
