import CountyFlow.Core.Fixed
import CountyFlow.Evidence.Produced
import CountyFlow.Graph.Plans

/-!
# The frozen road network

Intake freezes the road network in the state of the task, with every decimal as the text `format(d, "f")`,
and the nodes that plan restore it.  What the algorithms read of a snapshot are the values of its decimals,
and these are restored.  `plan` also prints the nodes it has planned over, with `str`, where a positive
exponent would show; the repository rounds to hundredths, so that no snapshot has one.
-/

namespace CountyFlow.Graph

open CountyFlow.Core CountyFlow.Lib CountyFlow.Road

/-! ### Snapshots and their states -/

/-- `RoadNetworkSnapshot` with everything it holds. -/
structure NetworkSnapshot where
  version : ℤ
  nodes : List Evidence.RoadNodeSnapshot
  edges : List Evidence.RoadEdgeSnapshot
  deriving DecidableEq, Repr

structure RoadNodeSnapshotState where
  nodeId : String
  name : String
  xKm : String
  yKm : String
  nodeType : String
  deriving DecidableEq, Repr

structure RoadEdgeSnapshotState where
  edgeId : String
  name : String
  fromNodeId : String
  toNodeId : String
  distanceKm : String
  baseMinutes : ℤ
  roadLevel : String
  riskLevel : String
  status : String
  congestionFactor : String
  weightLimitTons : String
  bidirectional : Bool
  version : ℤ
  deriving DecidableEq, Repr

structure RoadNetworkSnapshotState where
  version : ℤ
  nodes : List RoadNodeSnapshotState
  edges : List RoadEdgeSnapshotState
  deriving DecidableEq, Repr

/-- One node of `to_state`. -/
def freezeNode (node : Evidence.RoadNodeSnapshot) : RoadNodeSnapshotState where
  nodeId := node.nodeId
  name := node.name
  xKm := node.xKm.fixed
  yKm := node.yKm.fixed
  nodeType := node.nodeType

/-- One edge of `to_state`. -/
def freezeEdge (edge : Evidence.RoadEdgeSnapshot) : RoadEdgeSnapshotState where
  edgeId := edge.edgeId
  name := edge.name
  fromNodeId := edge.fromNodeId
  toNodeId := edge.toNodeId
  distanceKm := edge.distanceKm.fixed
  baseMinutes := edge.baseMinutes
  roadLevel := edge.roadLevel
  riskLevel := edge.riskLevel
  status := edge.status
  congestionFactor := edge.congestionFactor.fixed
  weightLimitTons := edge.weightLimitTons.fixed
  bidirectional := edge.bidirectional
  version := edge.version

def NetworkSnapshot.toState (snapshot : NetworkSnapshot) : RoadNetworkSnapshotState where
  version := snapshot.version
  nodes := snapshot.nodes.map freezeNode
  edges := snapshot.edges.map freezeEdge

/-- `Decimal(text)`, of a text of a finite number. -/
def readDecimal (text : String) : Option Decimal :=
  match Number.ofText text with
  | some (.finite d) => some d
  | _ => none

/-- One node of `restore`. -/
def restoreNode (node : RoadNodeSnapshotState) : Option Evidence.RoadNodeSnapshot := do
  let xKm ← readDecimal node.xKm
  let yKm ← readDecimal node.yKm
  return ⟨node.nodeId, node.name, xKm, yKm, node.nodeType⟩

/-- One edge of `restore`. -/
def restoreEdge (edge : RoadEdgeSnapshotState) : Option Evidence.RoadEdgeSnapshot := do
  let distanceKm ← readDecimal edge.distanceKm
  let congestionFactor ← readDecimal edge.congestionFactor
  let weightLimitTons ← readDecimal edge.weightLimitTons
  return ⟨edge.edgeId, edge.name, edge.fromNodeId, edge.toNodeId, distanceKm, edge.baseMinutes,
    edge.roadLevel,
    edge.riskLevel, edge.status, congestionFactor, weightLimitTons, edge.bidirectional, edge.version⟩

/-- `restore`; `none` where a decimal cannot be read. -/
def restore (state : RoadNetworkSnapshotState) : Option NetworkSnapshot := do
  let nodes ← state.nodes.mapM restoreNode
  let edges ← state.edges.mapM restoreEdge
  return ⟨state.version, nodes, edges⟩

/-! ### Snapshots that the program builds -/

/-- `_decimal`: `value.quantize(Decimal("0.01"), rounding=ROUND_HALF_UP)`; `none` for the `InvalidOperation`
of a result with more than 28 digits. -/
def quantized (value : Decimal) : Option Decimal :=
  let coefficient :=
    if -2 ≤ value.exponent then value.coefficient * 10 ^ (value.exponent + 2).toNat
    else
      let unit := 10 ^ (-2 - value.exponent).toNat
      (2 * value.coefficient + unit) / (2 * unit)
  if coefficient < 10 ^ 28 then some ⟨value.negative, coefficient, -2⟩ else none

/-- What the two queries of `snapshot` answer: the rows of `road_nodes` and of `road_edges`, whose columns
are the fields of a snapshot. -/
structure RoadTables where
  nodes : List Evidence.RoadNodeSnapshot
  edges : List Evidence.RoadEdgeSnapshot

def quantizedNode (node : Evidence.RoadNodeSnapshot) : Option Evidence.RoadNodeSnapshot := do
  let xKm ← quantized node.xKm
  let yKm ← quantized node.yKm
  return { node with xKm := xKm, yKm := yKm }

def quantizedEdge (edge : Evidence.RoadEdgeSnapshot) : Option Evidence.RoadEdgeSnapshot := do
  let distanceKm ← quantized edge.distanceKm
  let congestionFactor ← quantized edge.congestionFactor
  let weightLimitTons ← quantized edge.weightLimitTons
  return { edge with
    distanceKm := distanceKm, congestionFactor := congestionFactor, weightLimitTons := weightLimitTons }

/-- `SqlAlchemyRoadNetworkRepository.snapshot`. -/
def RoadTables.snapshot (tables : RoadTables) : Option NetworkSnapshot := do
  let nodes ← tables.nodes.mapM quantizedNode
  let edges ← tables.edges.mapM quantizedEdge
  return ⟨(edges.map Evidence.RoadEdgeSnapshot.version).max?.getD 0, nodes, edges⟩

/-- The snapshots there are: the repository's, and those restored from a state. -/
inductive NetworkSnapshot.Built : NetworkSnapshot → Prop
  | stored {tables : RoadTables} {snapshot : NetworkSnapshot} : tables.snapshot = some snapshot →
      Built snapshot
  | restored {snapshot restored : NetworkSnapshot} :
      Built snapshot → restore snapshot.toState = some restored → Built restored

/-! ### The restored snapshot -/

def plainNode (node : Evidence.RoadNodeSnapshot) : Evidence.RoadNodeSnapshot :=
  { node with xKm := node.xKm.plain, yKm := node.yKm.plain }

def plainEdge (edge : Evidence.RoadEdgeSnapshot) : Evidence.RoadEdgeSnapshot :=
  { edge with
    distanceKm := edge.distanceKm.plain
    congestionFactor := edge.congestionFactor.plain
    weightLimitTons := edge.weightLimitTons.plain }

def NetworkSnapshot.plain (snapshot : NetworkSnapshot) : NetworkSnapshot where
  version := snapshot.version
  nodes := snapshot.nodes.map plainNode
  edges := snapshot.edges.map plainEdge

/-- The decimals of a snapshot are such that the implementation can hold, and the coordinates have no positive
exponent. -/
structure NetworkSnapshot.Held (snapshot : NetworkSnapshot) : Prop where
  xKm : ∀ node ∈ snapshot.nodes, Number.tooLarge node.xKm = false
  yKm : ∀ node ∈ snapshot.nodes, Number.tooLarge node.yKm = false
  distanceKm : ∀ edge ∈ snapshot.edges, Number.tooLarge edge.distanceKm = false
  congestionFactor : ∀ edge ∈ snapshot.edges, Number.tooLarge edge.congestionFactor = false
  weightLimitTons : ∀ edge ∈ snapshot.edges, Number.tooLarge edge.weightLimitTons = false
  printed : ∀ node ∈ snapshot.nodes, node.xKm.exponent ≤ 0 ∧ node.yKm.exponent ≤ 0

theorem readDecimal_fixed {d : Decimal} (h : Number.tooLarge d = false) :
    readDecimal d.fixed = some d.plain := by
  unfold readDecimal
  rw [Decimal.ofText_fixed_plain h]

theorem restore_toState {snapshot : NetworkSnapshot} (h : snapshot.Held) :
    restore snapshot.toState = some snapshot.plain := by
  have hnodes : (snapshot.nodes.map freezeNode).mapM restoreNode = some (snapshot.nodes.map plainNode) := by
    refine Core.Schema.mapM_map_some fun node hnode => ?_
    unfold restoreNode freezeNode
    simp only [readDecimal_fixed (h.xKm node hnode), readDecimal_fixed (h.yKm node hnode)]
    rfl
  have hedges : (snapshot.edges.map freezeEdge).mapM restoreEdge = some (snapshot.edges.map plainEdge) := by
    refine Core.Schema.mapM_map_some fun edge hedge => ?_
    unfold restoreEdge freezeEdge
    simp only [readDecimal_fixed (h.distanceKm edge hedge), readDecimal_fixed (h.congestionFactor edge hedge),
      readDecimal_fixed (h.weightLimitTons edge hedge)]
    rfl
  unfold restore NetworkSnapshot.toState
  simp only [hnodes, hedges]
  rfl

/-! ### What is built is held -/

theorem exists_of_mapM {α β : Type} {f : α → Option β} {as : List α} {bs : List β} (h : as.mapM f = some bs)
    {b : β} (hb : b ∈ bs) : ∃ a ∈ as, f a = some b := by
  induction as generalizing bs with
  | nil =>
    cases h
    cases hb
  | cons a as ih =>
    rw [List.mapM_cons] at h
    obtain ⟨b', hb', h⟩ := Option.bind_eq_some_iff.mp h
    obtain ⟨bs', hbs', h⟩ := Option.bind_eq_some_iff.mp h
    cases h
    rcases List.mem_cons.mp hb with rfl | hb
    · exact ⟨a, List.mem_cons_self, hb'⟩
    · obtain ⟨a', ha', heq⟩ := ih hbs' hb
      exact ⟨a', List.mem_cons_of_mem a ha', heq⟩

theorem tooLarge_hundredths {negative : Bool} {coefficient : ℕ} (h : coefficient < 10 ^ 28) :
    Number.tooLarge ⟨negative, coefficient, -2⟩ = false := by
  have hlength : (Nat.toDigits 10 coefficient).length ≤ 28 :=
    (Nat.length_toDigits_le_iff (by decide) (by decide)).mpr h
  unfold Number.tooLarge
  rw [decide_eq_false_iff_not]
  show ¬ ((-2 : ℤ) < _ ∨ _ < (-2 : ℤ) + (Nat.toDigits 10 coefficient).length - 1)
  omega

theorem quantized_held {value d : Decimal} (h : quantized value = some d) :
    Number.tooLarge d = false ∧ d.exponent ≤ 0 := by
  unfold quantized at h
  dsimp only at h
  generalize hcoefficient : (if -2 ≤ value.exponent then _ else _) = coefficient at h
  split at h
  · rename_i hsmall
    cases h
    exact ⟨tooLarge_hundredths hsmall, (by decide : (-2 : ℤ) ≤ 0)⟩
  · cases h

/-- What the repository builds is held. -/
theorem RoadTables.snapshot_held {tables : RoadTables} {snapshot : NetworkSnapshot}
    (h : tables.snapshot = some snapshot) : snapshot.Held := by
  obtain ⟨nodes, hnodes, h⟩ := Option.bind_eq_some_iff.mp h
  obtain ⟨edges, hedges, h⟩ := Option.bind_eq_some_iff.mp h
  cases h
  have hnode : ∀ node ∈ nodes, (Number.tooLarge node.xKm = false ∧ node.xKm.exponent ≤ 0) ∧
      Number.tooLarge node.yKm = false ∧ node.yKm.exponent ≤ 0 := by
    intro node hmem
    obtain ⟨row, -, hrow⟩ := exists_of_mapM hnodes hmem
    obtain ⟨xKm, hx, hrow⟩ := Option.bind_eq_some_iff.mp hrow
    obtain ⟨yKm, hy, hrow⟩ := Option.bind_eq_some_iff.mp hrow
    cases hrow
    exact ⟨quantized_held hx, quantized_held hy⟩
  have hedge : ∀ edge ∈ edges, Number.tooLarge edge.distanceKm = false ∧
      Number.tooLarge edge.congestionFactor = false ∧ Number.tooLarge edge.weightLimitTons = false := by
    intro edge hmem
    obtain ⟨row, -, hrow⟩ := exists_of_mapM hedges hmem
    obtain ⟨distanceKm, hdistance, hrow⟩ := Option.bind_eq_some_iff.mp hrow
    obtain ⟨congestionFactor, hcongestion, hrow⟩ := Option.bind_eq_some_iff.mp hrow
    obtain ⟨weightLimitTons, hweight, hrow⟩ := Option.bind_eq_some_iff.mp hrow
    cases hrow
    exact ⟨(quantized_held hdistance).1, (quantized_held hcongestion).1, (quantized_held hweight).1⟩
  exact ⟨fun node hmem => (hnode node hmem).1.1, fun node hmem => (hnode node hmem).2.1,
    fun edge hmem => (hedge edge hmem).1, fun edge hmem => (hedge edge hmem).2.1,
    fun edge hmem => (hedge edge hmem).2.2, fun node hmem => ⟨(hnode node hmem).1.2, (hnode node hmem).2.2⟩⟩

/-- What is held stays so when its decimals are written in full. -/
theorem NetworkSnapshot.Held.plain {snapshot : NetworkSnapshot} (h : snapshot.Held) :
    snapshot.plain.Held := by
  refine ⟨fun node hmem => ?_, fun node hmem => ?_, fun edge hmem => ?_, fun edge hmem => ?_,
    fun edge hmem => ?_, fun node hmem => ?_⟩
  all_goals obtain ⟨old, hold, rfl⟩ := List.mem_map.mp hmem
  · exact Decimal.tooLarge_plain (h.xKm old hold)
  · exact Decimal.tooLarge_plain (h.yKm old hold)
  · exact Decimal.tooLarge_plain (h.distanceKm old hold)
  · exact Decimal.tooLarge_plain (h.congestionFactor old hold)
  · exact Decimal.tooLarge_plain (h.weightLimitTons old hold)
  · exact ⟨Decimal.exponent_plain _, Decimal.exponent_plain _⟩

theorem NetworkSnapshot.Built.held {snapshot : NetworkSnapshot} (h : snapshot.Built) : snapshot.Held := by
  induction h with
  | stored htables => exact RoadTables.snapshot_held htables
  | restored _ hrestored ih =>
    rw [restore_toState ih] at hrestored
    cases hrestored
    exact ih.plain

/-! ### The same by value -/

structure SameNode (a b : Evidence.RoadNodeSnapshot) : Prop where
  nodeId : a.nodeId = b.nodeId
  name : a.name = b.name
  xKm : a.xKm.value = b.xKm.value
  yKm : a.yKm.value = b.yKm.value
  nodeType : a.nodeType = b.nodeType

structure SameEdge (a b : Evidence.RoadEdgeSnapshot) : Prop where
  edgeId : a.edgeId = b.edgeId
  name : a.name = b.name
  fromNodeId : a.fromNodeId = b.fromNodeId
  toNodeId : a.toNodeId = b.toNodeId
  distanceKm : a.distanceKm.value = b.distanceKm.value
  baseMinutes : a.baseMinutes = b.baseMinutes
  roadLevel : a.roadLevel = b.roadLevel
  riskLevel : a.riskLevel = b.riskLevel
  status : a.status = b.status
  congestionFactor : a.congestionFactor.value = b.congestionFactor.value
  weightLimitTons : a.weightLimitTons.value = b.weightLimitTons.value
  bidirectional : a.bidirectional = b.bidirectional
  version : a.version = b.version

/-- `==` of two snapshots. -/
structure SameSnapshot (a b : NetworkSnapshot) : Prop where
  version : a.version = b.version
  nodes : List.Forall₂ SameNode a.nodes b.nodes
  edges : List.Forall₂ SameEdge a.edges b.edges

theorem same_plain (snapshot : NetworkSnapshot) : SameSnapshot snapshot.plain snapshot := by
  refine ⟨rfl, List.forall₂_map_left_iff.mpr ?_, List.forall₂_map_left_iff.mpr ?_⟩
  · refine List.forall₂_same.mpr fun node _ => ?_
    exact ⟨rfl, rfl, node.xKm.value_plain, node.yKm.value_plain, rfl⟩
  · refine List.forall₂_same.mpr fun edge _ => ?_
    exact ⟨rfl, rfl, rfl, rfl, edge.distanceKm.value_plain, rfl, rfl, rfl, rfl,
      edge.congestionFactor.value_plain, edge.weightLimitTons.value_plain, rfl, rfl⟩

/-! ### What the algorithms read -/

/-- A key of `_RISK_PENALTIES`. -/
def riskLevelOf (text : String) : Option RiskLevel :=
  if text = "LOW" then some .low
  else if text = "MEDIUM" then some .medium
  else if text = "HIGH" then some .high
  else none

def edgeStatusOf (text : String) : EdgeStatus :=
  if text = "OPEN" then .open
  else if text = "CONGESTED" then .congested
  else if text = "RESTRICTED" then .restricted
  else if text = "BLOCKED" then .blocked
  else .other text

/-- What the algorithms read of an edge; `none` for a risk level without a penalty. -/
def viewEdge (edge : Evidence.RoadEdgeSnapshot) : Option RoadEdgeSnapshot :=
  (riskLevelOf edge.riskLevel).map fun riskLevel => {
    edgeId := edge.edgeId
    fromNodeId := edge.fromNodeId
    toNodeId := edge.toNodeId
    distanceKm := edge.distanceKm.value
    baseMinutes := edge.baseMinutes
    riskLevel := riskLevel
    status := edgeStatusOf edge.status
    congestionFactor := edge.congestionFactor.value
    weightLimitTons := edge.weightLimitTons.value
    bidirectional := edge.bidirectional }

/-- What the algorithms read of a snapshot, whose edges have different ids. -/
def NetworkSnapshot.view (snapshot : NetworkSnapshot) : Option RoadNetworkSnapshot :=
  (snapshot.edges.mapM viewEdge).bind fun edges =>
    if h : (edges.map RoadEdgeSnapshot.edgeId).Nodup then
      some ⟨snapshot.version, snapshot.nodes.map Evidence.RoadNodeSnapshot.nodeId, edges, h⟩
    else none

theorem viewEdge_plain (edge : Evidence.RoadEdgeSnapshot) : viewEdge (plainEdge edge) = viewEdge edge := by
  unfold viewEdge plainEdge
  simp only [Decimal.value_plain]

theorem view_plain (snapshot : NetworkSnapshot) : snapshot.plain.view = snapshot.view := by
  have hedges : snapshot.plain.edges.mapM viewEdge = snapshot.edges.mapM viewEdge := by
    show (snapshot.edges.map plainEdge).mapM viewEdge = _
    rw [List.mapM_map]
    exact congrArg (fun f => snapshot.edges.mapM f) (funext viewEdge_plain)
  have hnodes : snapshot.plain.nodes.map Evidence.RoadNodeSnapshot.nodeId =
      snapshot.nodes.map Evidence.RoadNodeSnapshot.nodeId := by
    show (snapshot.nodes.map plainNode).map _ = _
    rw [List.map_map]
    rfl
  unfold NetworkSnapshot.view
  rw [hedges, hnodes]
  rfl

/-- `RoutingResult` with the network it prints. -/
structure PrintedPlan where
  result : RoutingResult
  roadNetworkNodes : List Value := []
  roadNetworkEdges : List Value := []

/-- `plan` over a snapshot: a result that has got to the network prints its nodes and its edges. -/
def RoutingService.planOver (v : RoutingService) (fuel : ℕ) (context : RoutePlanningContext)
    (capacityStatus : CapacityStatus) (affectedEdgeIds : List String) (snapshot : NetworkSnapshot) :
    Option (Except GraphError PrintedPlan) :=
  snapshot.view.map fun network =>
    (v.plan fuel context capacityStatus affectedEdgeIds (some network)).map fun result =>
      if result.roadNetworkVersion.isSome then
        ⟨result, snapshot.nodes.map Evidence.nodeToState, snapshot.edges.map Evidence.edgeToState⟩
      else { result := result }

theorem edgeToState_plain (edge : Evidence.RoadEdgeSnapshot) :
    Evidence.edgeToState (plainEdge edge) = Evidence.edgeToState edge := by
  unfold Evidence.edgeToState plainEdge
  simp only [Decimal.fixed_plain]

theorem nodeToState_plain {node : Evidence.RoadNodeSnapshot} (hx : node.xKm.exponent ≤ 0)
    (hy : node.yKm.exponent ≤ 0) : Evidence.nodeToState (plainNode node) = Evidence.nodeToState node := by
  unfold plainNode
  rw [Decimal.plain_of_nonpos hx, Decimal.plain_of_nonpos hy]

/-! ### What is stored later -/

/-- The services of a task, with other road networks behind its fleet and its routing. -/
def Services.stored (v : Services) (fleetNetwork routingNetwork : RoadNetworkSnapshot) : Services :=
  { v with
    fleet := v.fleet.map fun fleet => { fleet with network := fleetNetwork }
    routing := v.routing.map fun routing =>
      { routing with roadNetwork := routing.roadNetwork.map fun _ => routingNetwork } }

section Stored

variable {network fleetNetwork routingNetwork : RoadNetworkSnapshot} {fuel : ℕ} {s s' : GraphState}

theorem capacityNode_stored (service : Option CapacityService) (fleet : Option FleetAllocationService)
    (h : s.roadNetworkSnapshot = some network) :
    capacityNode service (fleet.map fun fleet => { fleet with network := fleetNetwork }) true fuel s =
      capacityNode service fleet true fuel s := by
  unfold capacityNode
  cases s.assignedCapacity service with
  | none => rfl
  | some capacity =>
    cases fleet with
    | none => rfl
    | some fleet =>
      simp only [Option.map_some, h, if_true]
      rfl

theorem capacityNode_snapshot {service : Option CapacityService} {fleet : Option FleetAllocationService}
    {restores : Bool} (h : capacityNode service fleet restores fuel s = .ok s') :
    s'.roadNetworkSnapshot = s.roadNetworkSnapshot := by
  unfold capacityNode at h
  split at h
  · cases h
    rfl
  · split at h
    · cases h
      rfl
    · split at h
      · split at h
        · cases h
        · cases h
          rfl
        · cases h
          rfl
      · cases h
        rfl

theorem plan_stored (v : RoutingService) (context : RoutePlanningContext) (capacityStatus : CapacityStatus)
    (affectedEdgeIds : List String) :
    RoutingService.plan { v with roadNetwork := v.roadNetwork.map fun _ => routingNetwork } fuel context
      capacityStatus affectedEdgeIds (some network) =
        v.plan fuel context capacityStatus affectedEdgeIds (some network) := by
  unfold RoutingService.plan RoutingService.network
  cases v.hasPathFinder with
  | false => rfl
  | true => rfl

theorem planningEnds_stored (v : RoutingService) :
    RoutingService.planningEnds { v with roadNetwork := v.roadNetwork.map fun _ => routingNetwork } s =
      v.planningEnds s := by
  unfold RoutingService.planningEnds RoutingService.canPlan
  cases v.roadNetwork with
  | none => rfl
  | some stored => rfl

theorem routingNode_stored (routing : Option RoutingService) (h : s.roadNetworkSnapshot = some network) :
    routingNode (routing.map fun routing =>
      { routing with roadNetwork := routing.roadNetwork.map fun _ => routingNetwork }) true fuel s =
        routingNode routing true fuel s := by
  cases routing with
  | none => rfl
  | some v =>
    have hanswer : RoutingService.answer
        { v with roadNetwork := v.roadNetwork.map fun _ => routingNetwork } true fuel s =
          v.answer true fuel s := by
      unfold RoutingService.answer
      rw [planningEnds_stored]
      cases v.planningEnds s with
      | none => rfl
      | some ends =>
        simp only [h, if_true, plan_stored]
    simp only [Option.map_some, routingNode, hanswer, planningEnds_stored]

theorem recalled_snapshot (v : Services) (s : GraphState) :
    (v.recalled s).roadNetworkSnapshot = (v.received s).roadNetworkSnapshot := by
  unfold Services.recalled entityMemoryNode graphMemoryNode environmentNode
  generalize v.received s = s₁
  split <;> split <;> split <;> rfl

theorem run_stored (v : Services) (fleetNetwork routingNetwork : RoadNetworkSnapshot)
    (hcaptures : v.snapshots.isSome = true) (h : (v.received s).roadNetworkSnapshot = some network) :
    (v.stored fleetNetwork routingNetwork).run s = v.run s := by
  have hrecalled : (v.recalled s).roadNetworkSnapshot = some network := (recalled_snapshot v s).trans h
  have hcapacity := @capacityNode_stored network fleetNetwork v.fuel (v.recalled s) v.capacity v.fleet
    hrecalled
  rw [← hcaptures] at hcapacity
  have hcollected : (v.stored fleetNetwork routingNetwork).collected s = v.collected s := hcapacity
  show ((v.stored fleetNetwork routingNetwork).collected s >>= fun s₅ => _) = (v.collected s >>= fun s₅ => _)
  rw [hcollected]
  cases hok : v.collected s with
  | error e => rfl
  | ok s₅ =>
    have hsnapshot : s₅.roadNetworkSnapshot = some network := (capacityNode_snapshot hok).trans hrecalled
    have hrouting := @routingNode_stored network routingNetwork v.fuel s₅ v.routing hsnapshot
    rw [← hcaptures] at hrouting
    exact congrArg (· >>= fun s₆ => [Node.dispatch, Node.audit].foldlM v.node s₆) hrouting

end Stored

/-! ### Freezing changes nothing -/

/-- **Freezing a snapshot loses nothing**: what is restored is the same by value, each of the algorithms
answers the same for it, and a run behind an intake that has captured it does not see what is stored later. -/
structure Lossless (snapshot restored : NetworkSnapshot) : Prop where
  restores : restore snapshot.toState = some restored
  same : SameSnapshot restored snapshot
  find : ∀ fuel startNodeId endNodeId objective vehicleWeightTons excludedEdgeIds,
    restored.view.map (fun network =>
      find fuel network startNodeId endNodeId objective vehicleWeightTons excludedEdgeIds) =
    snapshot.view.map fun network =>
      find fuel network startNodeId endNodeId objective vehicleWeightTons excludedEdgeIds
  allocate : ∀ (v : FleetAllocationService) fuel request,
    restored.view.map (fun network => v.allocate fuel request (some network)) =
      snapshot.view.map fun network => v.allocate fuel request (some network)
  plan : ∀ (v : RoutingService) fuel context capacityStatus affectedEdgeIds,
    v.planOver fuel context capacityStatus affectedEdgeIds restored =
      v.planOver fuel context capacityStatus affectedEdgeIds snapshot
  frozen : ∀ (v : Services) (s : GraphState) network, restored.view = some network →
    v.snapshots.isSome = true → (v.received s).roadNetworkSnapshot = some network →
      ∀ fleetNetwork routingNetwork, (v.stored fleetNetwork routingNetwork).run s = v.run s

theorem lossless_plain {snapshot : NetworkSnapshot} (hheld : snapshot.Held) :
    Lossless snapshot snapshot.plain := by
  refine ⟨restore_toState hheld, same_plain snapshot, ?_, ?_, ?_, ?_⟩
  · intros
    rw [view_plain]
  · intros
    rw [view_plain]
  · intro v fuel context capacityStatus affectedEdgeIds
    have hnodes : snapshot.plain.nodes.map Evidence.nodeToState =
      snapshot.nodes.map Evidence.nodeToState := by
      show (snapshot.nodes.map plainNode).map _ = _
      rw [List.map_map]
      refine List.map_congr_left fun node hnode => ?_
      exact nodeToState_plain (hheld.printed node hnode).1 (hheld.printed node hnode).2
    have hedges : snapshot.plain.edges.map Evidence.edgeToState =
      snapshot.edges.map Evidence.edgeToState := by
      show (snapshot.edges.map plainEdge).map _ = _
      rw [List.map_map]
      exact congrArg (fun f => snapshot.edges.map f) (funext edgeToState_plain)
    unfold RoutingService.planOver
    rw [view_plain, hnodes, hedges]
  · intro v s network' _ hcaptures hreceived fleetNetwork routingNetwork
    exact run_stored v fleetNetwork routingNetwork hcaptures hreceived

/-- **Freezing loses nothing** of a snapshot that the program builds. -/
theorem frozen_lossless {snapshot : NetworkSnapshot} (h : snapshot.Built) :
    ∃ restored, Lossless snapshot restored :=
  ⟨snapshot.plain, lossless_plain h.held⟩

/-- Two nodes ten kilometres apart, as the columns may hold them. -/
def villageTables : RoadTables where
  nodes := [⟨"N01", "中心仓", ⟨false, 0, 0⟩, ⟨false, 0, -2⟩, "STATION"⟩,
    ⟨"N06", "村口", ⟨false, 1, 1⟩, ⟨false, 5, -3⟩, "VILLAGE"⟩]
  edges := [⟨"E01", "新平路", "N01", "N06", ⟨false, 1000, -2⟩, 20, "COUNTY", "LOW", "OPEN", ⟨false, 100, -2⟩,
    ⟨false, 500, -2⟩, true, 1⟩]

theorem frozen_lossless_village : ∃ snapshot restored, villageTables.snapshot = some snapshot ∧
    snapshot.nodes.map (fun node => (node.xKm.str, node.yKm.str)) = [("0.00", "0.00"), ("10.00", "0.01")] ∧
    Lossless snapshot restored := by
  have hsnapshot : villageTables.snapshot.map (fun snapshot => snapshot.nodes.map fun node =>
      (node.xKm.str, node.yKm.str)) = some [("0.00", "0.00"), ("10.00", "0.01")] := by decide +kernel
  obtain ⟨snapshot, hsnapshot, hprinted⟩ := Option.map_eq_some_iff.mp hsnapshot
  obtain ⟨restored, hlossless⟩ := frozen_lossless (.stored hsnapshot)
  exact ⟨snapshot, restored, hsnapshot, hprinted, hlossless⟩

end CountyFlow.Graph
