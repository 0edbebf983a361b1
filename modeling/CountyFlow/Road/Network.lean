import Mathlib.Algebra.Order.Floor.Ring
import Mathlib.Algebra.Order.Field.Rat
import Mathlib.Data.List.Lex
import Mathlib.Data.Nat.Log
import Mathlib.Data.Prod.Lex
import Mathlib.Data.Rat.Floor
import Mathlib.Data.String.Basic
import CountyFlow.Lib.Search
import CountyFlow.Lib.Table

/-!
# The road network and its path finder

`RoadNetworkSnapshot` is what the planner sees of the road network; `DijkstraPathFinder.find` is a
best-first search over it.  A decimal is the rational number it stands for.
-/

namespace CountyFlow.Road

open CountyFlow.Lib

/-! ### Decimals -/

/-- `Decimal.quantize(Decimal(1).scaleb(-places), rounding=ROUND_HALF_UP)`. -/
def quantize (places : ℕ) (q : ℚ) : ℚ :=
  if 0 ≤ q then ⌊q * 10 ^ places + 1 / 2⌋ / 10 ^ places
  else -(⌊-q * 10 ^ places + 1 / 2⌋ / 10 ^ places)

/-- `ROUND_HALF_EVEN` to an integer, of a number that is not negative. -/
def roundHalfEven (q : ℚ) : ℤ :=
  if q - ⌊q⌋ < 1 / 2 then ⌊q⌋
  else if 1 / 2 < q - ⌊q⌋ then ⌊q⌋ + 1
  else if ⌊q⌋ % 2 = 0 then ⌊q⌋ else ⌊q⌋ + 1

/-- The number of digits to the right of the point that a number keeps in a context of 28 digits. -/
def keptPlaces (q : ℚ) : ℤ :=
  if 1 ≤ q then 27 - Nat.log 10 ⌊q⌋.toNat else 27 + Nat.clog 10 ⌈q⁻¹⌉.toNat

/-- The result of an operation in the default context: 28 significant digits, ties to even.  Sums and
products of columns fit, it is needed behind a quotient. -/
def rounded (q : ℚ) : ℚ :=
  if q = 0 then 0
  else
    let places := keptPlaces |q|
    let kept : ℚ := roundHalfEven (|q| * (10 : ℚ) ^ places) / (10 : ℚ) ^ places
    if q < 0 then -kept else kept

/-- `/` of two decimals. -/
def divide (a b : ℚ) : ℚ := rounded (a / b)

/-! ### Snapshots -/

inductive RouteObjective where
  | fastest | shortest | safest
  deriving DecidableEq, Repr

def RouteObjective.all : List RouteObjective := [.fastest, .shortest, .safest]

/-- The keys of `_RISK_PENALTIES`. -/
inductive RiskLevel where
  | low | medium | high
  deriving DecidableEq, Repr

/-- The status of an edge; the column is a text, and the finder only looks for `BLOCKED`. -/
inductive EdgeStatus where
  | «open» | congested | restricted | blocked
  | other (text : String)
  deriving DecidableEq, Repr

structure RoadEdgeSnapshot where
  edgeId : String
  fromNodeId : String
  toNodeId : String
  distanceKm : ℚ
  baseMinutes : ℤ
  riskLevel : RiskLevel
  status : EdgeStatus
  congestionFactor : ℚ
  weightLimitTons : ℚ
  bidirectional : Bool
  deriving DecidableEq, Repr

/-- The road network at one moment.  Nodes are given by their ids; `edge_id` is unique. -/
structure RoadNetworkSnapshot where
  version : ℤ
  nodes : List String
  edges : List RoadEdgeSnapshot
  edgeIds_nodup : (edges.map RoadEdgeSnapshot.edgeId).Nodup

structure PathResult where
  objective : RouteObjective
  nodeIds : List String
  edgeIds : List String
  distanceKm : ℚ
  estimatedMinutes : ℤ
  riskCost : ℚ
  visitedNodeCount : ℕ
  deriving DecidableEq, Repr

namespace RoadNetworkSnapshot

def edge? (snapshot : RoadNetworkSnapshot) (edgeId : String) : Option RoadEdgeSnapshot :=
  snapshot.edges.find? fun edge => edge.edgeId = edgeId

def mapStatus (snapshot : RoadNetworkSnapshot) (f : RoadEdgeSnapshot → EdgeStatus) :
    RoadNetworkSnapshot where
  version := snapshot.version
  nodes := snapshot.nodes
  edges := snapshot.edges.map fun edge => { edge with status := f edge }
  edgeIds_nodup := by
    rw [List.map_map]
    exact snapshot.edgeIds_nodup

theorem edge?_of_mem {snapshot : RoadNetworkSnapshot} {edge : RoadEdgeSnapshot}
    (h : edge ∈ snapshot.edges) : snapshot.edge? edge.edgeId = some edge :=
  Table.find_of_mem (t := ⟨snapshot.edges, snapshot.edgeIds_nodup⟩) h

end RoadNetworkSnapshot

/-! ### The path finder -/

def RoadEdgeSnapshot.riskPenalty (edge : RoadEdgeSnapshot) : ℚ :=
  match edge.riskLevel with
  | .low => 0
  | .medium => 4
  | .high => 12

def RoadEdgeSnapshot.minutes (edge : RoadEdgeSnapshot) : ℚ := edge.baseMinutes * edge.congestionFactor

def RoadEdgeSnapshot.weight (edge : RoadEdgeSnapshot) : RouteObjective → ℚ
  | .shortest => edge.distanceKm
  | .fastest => edge.minutes
  | .safest => edge.minutes + edge.riskPenalty

def RoadEdgeSnapshot.isAvailable (edge : RoadEdgeSnapshot) (vehicleWeightTons : ℚ)
    (excludedEdgeIds : List String) : Bool :=
  decide (edge.edgeId ∉ excludedEdgeIds ∧ edge.status ≠ .blocked ∧
    vehicleWeightTons ≤ edge.weightLimitTons)

def RoadNetworkSnapshot.displayMinutes (snapshot : RoadNetworkSnapshot) (edgeIds : List String) : ℤ :=
  ⌈(edgeIds.map fun edgeId => (snapshot.edge? edgeId).elim 0 RoadEdgeSnapshot.minutes).sum⌉

structure Entry where
  cost : ℚ
  edgeIds : List String
  nodeId : String
  nodePath : List String
  distanceKm : ℚ
  riskCost : ℚ
  deriving DecidableEq, Repr

namespace Entry

/-- What `best` keeps of an entry. -/
def key (e : Entry) : ℚ ×ₗ List String := toLex (e.cost, e.edgeIds)

/-- The tuple the heap compares. -/
def tuple (e : Entry) : ℚ ×ₗ List String ×ₗ String ×ₗ List String ×ₗ ℚ ×ₗ ℚ :=
  toLex (e.cost, toLex (e.edgeIds, toLex (e.nodeId, toLex (e.nodePath,
    toLex (e.distanceKm, e.riskCost)))))

def follow (e : Entry) (objective : RouteObjective) (next : String × RoadEdgeSnapshot) : Entry where
  cost := e.cost + next.2.weight objective
  edgeIds := e.edgeIds ++ [next.2.edgeId]
  nodeId := next.1
  nodePath := e.nodePath ++ [next.1]
  distanceKm := e.distanceKm + next.2.distanceKm
  riskCost := e.riskCost + next.2.riskPenalty

def first (startNodeId : String) : Entry := ⟨0, [], startNodeId, [startNodeId], 0, 0⟩

end Entry

/-- `adjacency`: what leads away from a node, by edge and then by node. -/
def RoadNetworkSnapshot.adjacency (snapshot : RoadNetworkSnapshot) (vehicleWeightTons : ℚ)
    (excludedEdgeIds : List String) (nodeId : String) : List (String × RoadEdgeSnapshot) :=
  ((snapshot.edges.filter fun edge => edge.isAvailable vehicleWeightTons excludedEdgeIds).flatMap
    fun edge =>
      (if edge.fromNodeId = nodeId then [(edge.toNodeId, edge)] else []) ++
        if edge.bidirectional ∧ edge.toNodeId = nodeId then [(edge.fromNodeId, edge)] else []
    ).insertionSort fun x y =>
      (toLex (x.2.edgeId, x.1) : String ×ₗ String) ≤ toLex (y.2.edgeId, y.1)

/-- What `find` searches. -/
def RoadNetworkSnapshot.space (snapshot : RoadNetworkSnapshot) (objective : RouteObjective)
    (vehicleWeightTons : ℚ) (excludedEdgeIds : List String) :
    Space String (ℚ ×ₗ List String)
      (ℚ ×ₗ List String ×ₗ String ×ₗ List String ×ₗ ℚ ×ₗ ℚ) Entry where
  node := Entry.nodeId
  key := Entry.key
  rank := Entry.tuple
  successors := fun e =>
    (snapshot.adjacency vehicleWeightTons excludedEdgeIds e.nodeId).map (e.follow objective)

def RoadNetworkSnapshot.pathOf (snapshot : RoadNetworkSnapshot) (objective : RouteObjective)
    (e : Entry) (visited : ℕ) : PathResult where
  objective := objective
  nodeIds := e.nodePath
  edgeIds := e.edgeIds
  distanceKm := quantize 2 e.distanceKm
  estimatedMinutes := snapshot.displayMinutes e.edgeIds
  riskCost := e.riskCost
  visitedNodeCount := visited

/-- `DijkstraPathFinder.find`; the outer `none` is a search that has not ended with this much fuel. -/
def find (fuel : ℕ) (snapshot : RoadNetworkSnapshot) (startNodeId endNodeId : String)
    (objective : RouteObjective) (vehicleWeightTons : ℚ) (excludedEdgeIds : List String) :
    Option (Option PathResult) :=
  if startNodeId ∉ snapshot.nodes ∨ endNodeId ∉ snapshot.nodes then some none
  else if startNodeId = endNodeId then some (some ⟨objective, [startNodeId], [], 0, 0, 0, 0⟩)
  else
    let space := snapshot.space objective vehicleWeightTons excludedEdgeIds
    (space.search endNodeId fuel (space.frontier (.first startNodeId))).map fun result =>
      result.map fun (e, visited) => snapshot.pathOf objective e visited

end CountyFlow.Road
