import Mathlib.Data.List.Dedup
import CountyFlow.Graph.Plans
import CountyFlow.Graph.Selection

/-!
# The route that is recommended

`RoutingService.plan` searches a path for every objective, scores those that are different against their own
maxima, and recommends the one with the best score.  Here the candidates carry everything `_score_paths`
gives them, and the arithmetic is a parameter: what an operation keeps of its result.  With `rounded` it is
the plan of the service, with `id` the plan in rational numbers.
-/

namespace CountyFlow.Graph

open CountyFlow.Lib CountyFlow.Road

/-! ### Candidates -/

structure RouteScoreComponents where
  normalizedMinutes : ℚ
  normalizedDistance : ℚ
  normalizedRisk : ℚ
  timePenalty : ℚ
  distancePenalty : ℚ
  riskPenalty : ℚ
  deriving DecidableEq, Repr

/-- A candidate with all that `_score_paths` says of it. -/
structure PathCandidate extends RouteCandidate where
  nodeIds : List String
  objective : String
  algorithmVersion : String
  scoringFormula : String
  roadNetworkVersion : ℤ
  visitedNodeCount : ℕ
  riskCost : ℚ
  scoreComponents : RouteScoreComponents
  deriving DecidableEq, Repr

/-- A result with its candidates, and the one that is recommended. -/
structure PathPlan where
  result : RoutingResult
  candidates : List PathCandidate := []
  recommended : Option PathCandidate := none
  deriving DecidableEq, Repr

namespace RoutingService

section Arithmetic

-- what an operation keeps of its result
variable (keep : ℚ → ℚ)

/-- A normalised component of a path's score. -/
def normalizedBy (single : Bool) (value maximum : ℚ) : Except GraphError ℚ :=
  if single then .ok 0
  else if maximum = 0 then .error .divisionByZero
  else .ok (keep (value / maximum))

def scoreComponents (minutes distance risk : ℚ) : RouteScoreComponents where
  normalizedMinutes := minutes
  normalizedDistance := distance
  normalizedRisk := risk
  timePenalty := keep (minutes * 45)
  distancePenalty := keep (distance * 30)
  riskPenalty := keep (risk * 25)

/-- One round of `_score_paths`. -/
def scorePathBy (v : RoutingService) (roadNetworkVersion : ℤ) (single : Bool)
    (maxMinutes maxDistance maxRisk : ℚ) (path : PathResult) : Except GraphError PathCandidate := do
  let minutes ← normalizedBy keep single path.estimatedMinutes maxMinutes
  let distance ← normalizedBy keep single path.distanceKm maxDistance
  let risk := if single ∨ maxRisk = 0 then 0 else keep (path.riskCost / maxRisk)
  let components := scoreComponents keep minutes distance risk
  return {
    routeId := v.pathRouteId path.edgeIds
    routeName := objectiveText path.objective ++ " route"
    distanceKm := path.distanceKm
    estimatedMinutes := path.estimatedMinutes
    riskLevel := riskLevelText path.riskCost
    available := true
    reason := none
    score := keep (keep (keep (100 - components.timePenalty) - components.distancePenalty)
      - components.riskPenalty)
    edgeIds := path.edgeIds
    nodeIds := path.nodeIds
    objective := objectiveText path.objective
    algorithmVersion := "DIJKSTRA_V1"
    scoringFormula := "ROUTE_SCORE_V1"
    roadNetworkVersion := roadNetworkVersion
    visitedNodeCount := path.visitedNodeCount
    riskCost := path.riskCost
    scoreComponents := components }

def maximum (f : PathResult → ℚ) (path : PathResult) (rest : List PathResult) : ℚ :=
  (rest.map f).foldl max (f path)

/-- `_score_paths`. -/
def scorePathsBy (v : RoutingService) (roadNetworkVersion : ℤ) (path : PathResult)
    (rest : List PathResult) : Except GraphError (List PathCandidate) :=
  (path :: rest).mapM (v.scorePathBy keep roadNetworkVersion rest.isEmpty
    (maximum (fun p => p.estimatedMinutes) path rest) (maximum PathResult.distanceKm path rest)
    (maximum PathResult.riskCost path rest))

/-- `min`: the first one of the least key. -/
def preferredPath (candidate : PathCandidate) (rest : List PathCandidate) : PathCandidate :=
  rest.foldl (fun best other =>
    if preference other.toRouteCandidate < preference best.toRouteCandidate then other else best) candidate

/-- `plan`. -/
def planBy (v : RoutingService) (fuel : ℕ) (context : RoutePlanningContext)
    (capacityStatus : CapacityStatus) (affectedEdgeIds : List String)
    (roadNetworkSnapshot : Option RoadNetworkSnapshot) : Except GraphError PathPlan :=
  match v.network roadNetworkSnapshot with
  | none => .ok { result := { decisionReason := "Road network planning is not configured." } }
  | some snapshot =>
    if capacityStatus.closed then
      .ok { result := { decisionReason := "No vehicle is available for route planning." } }
    else do
      let blocked := blockedEdges affectedEdgeIds
      let originalPath ← searched (find fuel (originalSnapshot snapshot blocked)
        context.originNodeId context.destinationNodeId .fastest context.originalVehicleWeightTons [])
      let paths ← remainingPaths fuel snapshot context blocked
      match byEdges paths with
      | [] => return { result := {
          decisionReason := "No reachable route remains after excluding affected roads."
          noReachableRoute := true
          originalPath := originalPath
          blockedEdgeIds := blocked
          roadNetworkVersion := some snapshot.version
          roadNetworkEdges := snapshot.edges } }
      | path :: rest =>
        match ← v.scorePathsBy keep snapshot.version path rest with
        | [] => throw (.valueError "min() arg is an empty sequence")
        | candidate :: others =>
          let recommended := preferredPath candidate others
          return {
            result := planned snapshot blocked originalPath (path :: rest)
              ((candidate :: others).map PathCandidate.toRouteCandidate)
              recommended.toRouteCandidate
            candidates := candidate :: others
            recommended := some recommended }

end Arithmetic

/-! ### The plan of the service -/

section

variable {v : RoutingService}

theorem scorePathBy_rounded (roadNetworkVersion : ℤ) (single : Bool) (maxMinutes maxDistance maxRisk : ℚ)
    (path : PathResult) :
    (v.scorePathBy rounded roadNetworkVersion single maxMinutes maxDistance maxRisk path).map
      PathCandidate.toRouteCandidate = v.scorePath single maxMinutes maxDistance maxRisk path := by
  unfold scorePathBy scorePath
  show Except.map _ (normalized single _ _ >>= fun minutes => normalized single _ _ >>= _) = _
  cases normalized single path.estimatedMinutes maxMinutes with
  | error e => rfl
  | ok minutes =>
    cases normalized single path.distanceKm maxDistance with
    | error e => rfl
    | ok distance => rfl

theorem scorePathsBy_rounded (roadNetworkVersion : ℤ) (path : PathResult) (rest : List PathResult) :
    (v.scorePathsBy rounded roadNetworkVersion path rest).map (List.map PathCandidate.toRouteCandidate) =
      v.scorePaths path rest := by
  unfold scorePathsBy scorePaths
  rw [map_mapM]
  simp only [scorePathBy_rounded]
  rfl

theorem preferredPath_toRouteCandidate (candidate : PathCandidate) (rest : List PathCandidate) :
    (preferredPath candidate rest).toRouteCandidate =
      preferred candidate.toRouteCandidate (rest.map PathCandidate.toRouteCandidate) := by
  unfold preferredPath preferred
  induction rest generalizing candidate with
  | nil => rfl
  | cons other rest ih =>
    rw [List.foldl_cons, List.map_cons, List.foldl_cons, ih]
    split <;> rfl

theorem planBy_rounded (fuel : ℕ) (context : RoutePlanningContext) (capacityStatus : CapacityStatus)
    (affectedEdgeIds : List String) (roadNetworkSnapshot : Option RoadNetworkSnapshot) :
    (v.planBy rounded fuel context capacityStatus affectedEdgeIds roadNetworkSnapshot).map
      PathPlan.result = v.plan fuel context capacityStatus affectedEdgeIds roadNetworkSnapshot := by
  unfold planBy plan
  cases v.network roadNetworkSnapshot with
  | none => rfl
  | some snapshot =>
    cases capacityStatus.closed with
    | true => rfl
    | false =>
      simp only [Bool.false_eq_true, if_false, map_bind]
      refine congrArg (_ >>= ·) (funext fun originalPath => ?_)
      refine congrArg (_ >>= ·) (funext fun paths => ?_)
      cases byEdges paths with
      | nil => rfl
      | cons path rest =>
        simp only [map_bind]
        rw [← scorePathsBy_rounded snapshot.version]
        cases v.scorePathsBy rounded snapshot.version path rest with
        | error e => rfl
        | ok candidates =>
          cases candidates with
          | nil => rfl
          | cons candidate others =>
            show Except.ok _ = Except.ok _
            rw [preferredPath_toRouteCandidate]
            rfl

end

/-! ### Scores in rational numbers -/

theorem maximum_spec (f : PathResult → ℚ) (path : PathResult) (rest : List PathResult) :
    (∃ p ∈ path :: rest, f p = maximum f path rest) ∧ ∀ p ∈ path :: rest, f p ≤ maximum f path rest := by
  have hmax : ((path :: rest).map f).max? = some (maximum f path rest) := List.max?_cons'
  obtain ⟨hmem, hle⟩ := List.max?_eq_some_iff.mp hmax
  exact ⟨List.mem_map.mp hmem, fun p hp => hle _ (List.mem_map_of_mem hp)⟩

/-- The score of some figures against their maxima; without risk anywhere the risk counts for nothing. -/
def exactScore (maxMinutes maxDistance maxRisk minutes distance risk : ℚ) : ℚ :=
  100 - minutes / maxMinutes * 45 - distance / maxDistance * 30 - risk / maxRisk * 25

section

variable {maxMinutes maxDistance maxRisk minutes distance risk minutes' distance' risk' : ℚ}

theorem ratio_mem {value maximum : ℚ} (hnonneg : 0 ≤ value) (hle : value ≤ maximum) :
    0 ≤ value / maximum ∧ value / maximum ≤ 1 :=
  ⟨div_nonneg hnonneg (hnonneg.trans hle), div_le_one_of_le₀ hle (hnonneg.trans hle)⟩

theorem exactScore_mem (hminutes : 0 ≤ minutes) (hmaxMinutes : minutes ≤ maxMinutes)
    (hdistance : 0 ≤ distance) (hmaxDistance : distance ≤ maxDistance) (hrisk : 0 ≤ risk)
    (hmaxRisk : risk ≤ maxRisk) :
    0 ≤ exactScore maxMinutes maxDistance maxRisk minutes distance risk ∧
      exactScore maxMinutes maxDistance maxRisk minutes distance risk ≤ 100 := by
  have hm := ratio_mem hminutes hmaxMinutes
  have hd := ratio_mem hdistance hmaxDistance
  have hr := ratio_mem hrisk hmaxRisk
  unfold exactScore
  constructor
  · linarith [hm.2, hd.2, hr.2]
  · linarith [hm.1, hd.1, hr.1]

theorem exactScore_lt (hmaxMinutes : 0 < maxMinutes) (hmaxDistance : 0 < maxDistance) (hmaxRisk : 0 ≤ maxRisk)
    (hrisk : 0 ≤ risk) (hrisk' : risk' ≤ maxRisk) (hm : minutes ≤ minutes') (hd : distance ≤ distance')
    (hr : risk ≤ risk') (hstrict : minutes < minutes' ∨ distance < distance' ∨ risk < risk') :
    exactScore maxMinutes maxDistance maxRisk minutes' distance' risk' <
      exactScore maxMinutes maxDistance maxRisk minutes distance risk := by
  have hm' : minutes / maxMinutes ≤ minutes' / maxMinutes := div_le_div_of_nonneg_right hm hmaxMinutes.le
  have hd' : distance / maxDistance ≤ distance' / maxDistance :=
    div_le_div_of_nonneg_right hd hmaxDistance.le
  have hr' : risk / maxRisk ≤ risk' / maxRisk := div_le_div_of_nonneg_right hr hmaxRisk
  unfold exactScore
  rcases hstrict with hlt | hlt | hlt
  · have := div_lt_div_of_pos_right hlt hmaxMinutes
    linarith
  · have := div_lt_div_of_pos_right hlt hmaxDistance
    linarith
  · have := div_lt_div_of_pos_right hlt ((hrisk.trans_lt hlt).trans_le hrisk')
    linarith

end

end RoutingService

/-! ### The figures of a path -/

/-- Every road takes time and has a length. -/
structure PositiveNetwork (network : RoadNetworkSnapshot) : Prop where
  minutes : ∀ edge ∈ network.edges, 0 < edge.minutes
  distanceKm : ∀ edge ∈ network.edges, 0 < edge.distanceKm

theorem riskPenalty_nonneg (edge : RoadEdgeSnapshot) : 0 ≤ edge.riskPenalty := by
  unfold RoadEdgeSnapshot.riskPenalty
  cases edge.riskLevel <;> norm_num

theorem PositiveNetwork.weight {network : RoadNetworkSnapshot} (h : PositiveNetwork network)
    (objective : RouteObjective) : ∀ edge ∈ network.edges, 0 < edge.weight objective := by
  intro edge hedge
  cases objective with
  | fastest => exact h.minutes edge hedge
  | shortest => exact h.distanceKm edge hedge
  | safest => exact add_pos_of_pos_of_nonneg (h.minutes edge hedge) (riskPenalty_nonneg edge)

theorem edgeSum_nonneg {network : RoadNetworkSnapshot} {f : RoadEdgeSnapshot → ℚ}
    (hnonneg : ∀ edge ∈ network.edges, 0 ≤ f edge) (edgeIds : List String) :
    0 ≤ network.edgeSum f edgeIds := by
  apply List.sum_nonneg
  intro x hx
  obtain ⟨edgeId, -, rfl⟩ := List.mem_map.mp hx
  cases hedge : network.edge? edgeId with
  | none => exact le_rfl
  | some edge => exact hnonneg edge (List.mem_of_find?_eq_some hedge)

variable {places : ℕ} {q : ℚ}

theorem quantize_nonneg (h : 0 ≤ q) : 0 ≤ quantize places q := by
  unfold quantize
  rw [if_pos h]
  have hfloor : (0 : ℤ) ≤ ⌊q * 10 ^ places + 1 / 2⌋ := Int.floor_nonneg.mpr (by positivity)
  have hfloor' : (0 : ℚ) ≤ ⌊q * 10 ^ places + 1 / 2⌋ := by exact_mod_cast hfloor
  positivity

theorem quantize_pos (h : 1 / 2 ≤ q * 10 ^ places) : 0 < quantize places q := by
  have hq : 0 ≤ q := by
    by_contra hneg
    have : q * 10 ^ places ≤ 0 := mul_nonpos_of_nonpos_of_nonneg (not_le.mp hneg).le (by positivity)
    linarith
  unfold quantize
  rw [if_pos hq]
  have hfloor : (1 : ℤ) ≤ ⌊q * 10 ^ places + 1 / 2⌋ := Int.le_floor.mpr (by push_cast; linarith)
  have hfloor' : (1 : ℚ) ≤ ⌊q * 10 ^ places + 1 / 2⌋ := by exact_mod_cast hfloor
  positivity

variable {objective : RouteObjective} {vehicleWeightTons : ℚ} {startNodeId endNodeId : String}

section

variable {network : RoadNetworkSnapshot} {context : RoutePlanningContext} {affectedEdgeIds : List String}

/-- A path that the finder answers for one of the objectives. -/
def Found (network : RoadNetworkSnapshot) (context : RoutePlanningContext) (affectedEdgeIds : List String)
    (path : PathResult) : Prop :=
  ∃ objective, Best network objective context.activeVehicleWeightTons
    (RoutingService.blockedEdges affectedEdgeIds) context.startNodeId context.destinationNodeId path

variable {path : PathResult}

theorem Found.minutes_nonneg (h : Found network context affectedEdgeIds path)
    (hpositive : PositiveNetwork network) : 0 ≤ path.estimatedMinutes := by
  obtain ⟨objective, hbest⟩ := h
  rw [hbest.estimatedMinutes]
  exact Int.ceil_nonneg (edgeSum_nonneg (fun edge hedge => (hpositive.minutes edge hedge).le) _)

theorem Found.distance_nonneg (h : Found network context affectedEdgeIds path)
    (hpositive : PositiveNetwork network) : 0 ≤ path.distanceKm := by
  obtain ⟨objective, hbest⟩ := h
  rw [hbest.distanceKm]
  exact quantize_nonneg (edgeSum_nonneg (fun edge hedge => (hpositive.distanceKm edge hedge).le) _)

theorem Found.risk_nonneg (h : Found network context affectedEdgeIds path) : 0 ≤ path.riskCost := by
  obtain ⟨objective, hbest⟩ := h
  rw [hbest.riskCost]
  exact edgeSum_nonneg (fun edge _ => riskPenalty_nonneg edge) _

theorem Best.edges {excludedEdgeIds : List String}
    (h : Best network objective vehicleWeightTons excludedEdgeIds startNodeId endNodeId path) :
    ∀ edgeId ∈ path.edgeIds, ∃ edge ∈ network.edges, edge.edgeId = edgeId := by
  intro edgeId hedge
  obtain ⟨a, b, edge, hmem, rfl, -⟩ := h.walk.forall_edges hedge
  exact ⟨edge, hmem, rfl⟩

theorem Found.minutes_pos (h : Found network context affectedEdgeIds path)
    (hpositive : PositiveNetwork network) (hne : path.edgeIds ≠ []) : 0 < path.estimatedMinutes := by
  obtain ⟨objective, hbest⟩ := h
  rw [hbest.estimatedMinutes]
  exact Int.ceil_pos.mpr (edgeSum_pos hpositive.minutes hne (Best.edges hbest))

theorem Found.distance_pos (h : Found network context affectedEdgeIds path)
    (hdistance : ∀ edge ∈ network.edges, 1 / 200 ≤ edge.distanceKm) (hne : path.edgeIds ≠ []) :
    0 < path.distanceKm := by
  obtain ⟨objective, hbest⟩ := h
  rw [hbest.distanceKm]
  have hedges := Best.edges hbest
  obtain ⟨edgeId, rest, hsplit⟩ := List.exists_cons_of_ne_nil hne
  rw [hsplit] at hedges ⊢
  obtain ⟨edge, hedge, rfl⟩ := hedges edgeId List.mem_cons_self
  have hfirst : network.edgeSum RoadEdgeSnapshot.distanceKm [edge.edgeId] = edge.distanceKm :=
    edgeSum_singleton hedge
  have hrest : 0 ≤ network.edgeSum RoadEdgeSnapshot.distanceKm rest :=
    edgeSum_nonneg (fun edge hedge => le_trans (by norm_num) (hdistance edge hedge)) rest
  have hsum : network.edgeSum RoadEdgeSnapshot.distanceKm (edge.edgeId :: rest) =
      edge.distanceKm + network.edgeSum RoadEdgeSnapshot.distanceKm rest := by
    rw [← hfirst]
    exact edgeSum_append [edge.edgeId] rest
  apply quantize_pos
  rw [hsum]
  linarith [hdistance edge hedge]

end

/-! ### Candidates of paths -/

structure PathCandidate.Of (c : PathCandidate) (path : PathResult) : Prop where
  edgeIds : c.edgeIds = path.edgeIds
  nodeIds : c.nodeIds = path.nodeIds
  distanceKm : c.distanceKm = path.distanceKm
  estimatedMinutes : c.estimatedMinutes = path.estimatedMinutes
  riskCost : c.riskCost = path.riskCost

/-- A candidate is nowhere worse than another one, and better somewhere. -/
def PathCandidate.Dominates (d c : PathCandidate) : Prop :=
  d.estimatedMinutes ≤ c.estimatedMinutes ∧ d.distanceKm ≤ c.distanceKm ∧ d.riskCost ≤ c.riskCost ∧
    (d.estimatedMinutes < c.estimatedMinutes ∨ d.distanceKm < c.distanceKm ∨ d.riskCost < c.riskCost)

theorem PathCandidate.not_dominates_self (c : PathCandidate) : ¬ c.Dominates c := by
  intro h
  rcases h.2.2.2 with hlt | hlt | hlt
  · exact lt_irrefl _ hlt
  · exact lt_irrefl _ hlt
  · exact lt_irrefl _ hlt

variable {single : Bool} {keep : ℚ → ℚ} {c candidate : PathCandidate} {others : List PathCandidate}
  {paths : List PathResult}

namespace RoutingService

variable {maxMinutes maxDistance maxRisk : ℚ}

section

variable {v : RoutingService} {version : ℤ} {network : RoadNetworkSnapshot} {context : RoutePlanningContext}
  {affectedEdgeIds : List String} {path : PathResult} {rest : List PathResult}
  {candidates : List PathCandidate}

theorem normalizedBy_ok {value maximum x : ℚ} (h : normalizedBy id single value maximum = .ok x) :
    single = true ∧ x = 0 ∨ single = false ∧ maximum ≠ 0 ∧ x = value / maximum := by
  unfold normalizedBy at h
  cases single with
  | true => exact .inl ⟨rfl, (Except.ok.inj h).symm⟩
  | false =>
    rw [if_neg Bool.false_ne_true] at h
    split at h
    · cases h
    · rename_i hne
      exact .inr ⟨rfl, hne, (Except.ok.inj h).symm⟩

theorem scorePathBy_of
    (h : v.scorePathBy keep version single maxMinutes maxDistance maxRisk path = .ok c) : c.Of path := by
  obtain ⟨minutes, -, h⟩ := bind_eq_ok.mp h
  obtain ⟨distance, -, h⟩ := bind_eq_ok.mp h
  cases h
  exact ⟨rfl, rfl, rfl, rfl, rfl⟩

theorem scorePathBy_single
    (h : v.scorePathBy id version true maxMinutes maxDistance maxRisk path = .ok c) : c.score = 100 := by
  obtain ⟨minutes, hminutes, h⟩ := bind_eq_ok.mp h
  obtain ⟨distance, hdistance, h⟩ := bind_eq_ok.mp h
  cases hminutes
  cases hdistance
  cases h
  norm_num [scoreComponents]

theorem scorePathBy_several (h : v.scorePathBy id version false maxMinutes maxDistance maxRisk path = .ok c) :
    maxMinutes ≠ 0 ∧ maxDistance ≠ 0 ∧
      c.score = exactScore maxMinutes maxDistance maxRisk c.estimatedMinutes c.distanceKm c.riskCost := by
  obtain ⟨minutes, hminutes, h⟩ := bind_eq_ok.mp h
  obtain ⟨distance, hdistance, h⟩ := bind_eq_ok.mp h
  obtain ⟨hfalse, -⟩ | ⟨-, hmaxMinutes, rfl⟩ := normalizedBy_ok hminutes
  · cases hfalse
  obtain ⟨hfalse, -⟩ | ⟨-, hmaxDistance, rfl⟩ := normalizedBy_ok hdistance
  · cases hfalse
  cases h
  refine ⟨hmaxMinutes, hmaxDistance, ?_⟩
  have hrisk : (if False ∨ maxRisk = 0 then 0 else path.riskCost / maxRisk) = path.riskCost / maxRisk := by
    split
    · rename_i hzero
      rw [hzero.resolve_left id, div_zero]
    · rfl
  simp only [scoreComponents, id, Bool.false_eq_true, hrisk]
  rfl

theorem maximum_nonneg {f : PathResult → ℚ} (hnonneg : ∀ p ∈ path :: rest, 0 ≤ f p) :
    0 ≤ maximum f path rest := by
  obtain ⟨⟨p, hp, heq⟩, -⟩ := maximum_spec f path rest
  rw [← heq]
  exact hnonneg p hp

structure Scored (candidates : List PathCandidate) : Prop where
  bounds : ∀ c ∈ candidates, 0 ≤ c.score ∧ c.score ≤ 100
  better : ∀ c ∈ candidates, ∀ d ∈ candidates, d.Dominates c → c.score < d.score
  minutes : 1 < candidates.length → ∃ c ∈ candidates, 0 < c.estimatedMinutes
  distanceKm : 1 < candidates.length → ∃ c ∈ candidates, 0 < c.distanceKm

theorem scored_single (h : c.score = 100) : Scored [c] := by
  refine ⟨fun d hd => ?_, fun d hd e he hdominates => ?_, fun hlong => absurd hlong (lt_irrefl 1),
    fun hlong => absurd hlong (lt_irrefl 1)⟩
  · rw [List.mem_singleton.mp hd, h]
    norm_num
  · rw [List.mem_singleton.mp hd, List.mem_singleton.mp he] at hdominates
    exact absurd hdominates c.not_dominates_self

theorem scored_several (hpositive : PositiveNetwork network)
    (hfound : ∀ p ∈ path :: rest, Found network context affectedEdgeIds p)
    (h : List.Forall₂ (fun p c =>
      v.scorePathBy id version false (maximum (fun p => p.estimatedMinutes) path rest)
      (maximum PathResult.distanceKm path rest) (maximum PathResult.riskCost path rest) p = .ok c)
      (path :: rest) candidates) : Scored candidates := by
  have hminutes : ∀ p ∈ path :: rest, 0 ≤ (p.estimatedMinutes : ℚ) := fun p hp => by
    exact_mod_cast (hfound p hp).minutes_nonneg hpositive
  have hdistance : ∀ p ∈ path :: rest, 0 ≤ p.distanceKm := fun p hp => (hfound p hp).distance_nonneg hpositive
  have hrisk : ∀ p ∈ path :: rest, 0 ≤ p.riskCost := fun p hp => (hfound p hp).risk_nonneg
  have hmaxRisk := maximum_nonneg hrisk
  -- nothing has been divided by zero
  obtain ⟨first, -, hfirst⟩ := exists_of_forall₂ h.flip (List.mem_cons_self : path ∈ path :: rest)
  obtain ⟨hneMinutes, hneDistance, -⟩ := scorePathBy_several hfirst
  have hmaxMinutes := lt_of_le_of_ne (maximum_nonneg hminutes) hneMinutes.symm
  have hmaxDistance := lt_of_le_of_ne (maximum_nonneg hdistance) hneDistance.symm
  obtain ⟨⟨slow, hslow, hslowest⟩, hleMinutes⟩ := maximum_spec (fun p => (p.estimatedMinutes : ℚ)) path rest
  obtain ⟨⟨long, hlong, hlongest⟩, hleDistance⟩ := maximum_spec PathResult.distanceKm path rest
  obtain ⟨-, hleRisk⟩ := maximum_spec PathResult.riskCost path rest
  refine ⟨fun c hc => ?_, fun c hc d hd hdominates => ?_, fun _ => ?_, fun _ => ?_⟩
  · obtain ⟨p, hp, hpc⟩ := exists_of_forall₂ h hc
    have hof := scorePathBy_of hpc
    rw [(scorePathBy_several hpc).2.2, hof.estimatedMinutes, hof.distanceKm, hof.riskCost]
    exact exactScore_mem (hminutes p hp) (hleMinutes p hp) (hdistance p hp) (hleDistance p hp) (hrisk p hp)
      (hleRisk p hp)
  · obtain ⟨p, hp, hpc⟩ := exists_of_forall₂ h hc
    obtain ⟨q, hq, hqd⟩ := exists_of_forall₂ h hd
    have hriskC : c.riskCost ≤ _ := (scorePathBy_of hpc).riskCost ▸ hleRisk p hp
    have hriskD : 0 ≤ d.riskCost := (scorePathBy_of hqd).riskCost ▸ hrisk q hq
    rw [(scorePathBy_several hpc).2.2, (scorePathBy_several hqd).2.2]
    obtain ⟨hm, hd, hr, hstrict⟩ := hdominates
    exact exactScore_lt hmaxMinutes hmaxDistance hmaxRisk hriskD hriskC (by exact_mod_cast hm) hd hr
      (by exact_mod_cast hstrict)
  · obtain ⟨c, hc, hcp⟩ := exists_of_forall₂ h.flip hslow
    refine ⟨c, hc, ?_⟩
    rw [(scorePathBy_of hcp).estimatedMinutes]
    exact_mod_cast hslowest ▸ hmaxMinutes
  · obtain ⟨c, hc, hcp⟩ := exists_of_forall₂ h.flip hlong
    refine ⟨c, hc, ?_⟩
    rw [(scorePathBy_of hcp).distanceKm, hlongest]
    exact hmaxDistance

theorem scorePathsBy_ok (hpositive : PositiveNetwork network)
    (hfound : ∀ p ∈ path :: rest, Found network context affectedEdgeIds p)
    (h : v.scorePathsBy id version path rest = .ok candidates) : Scored candidates := by
  have hall := forall₂_of_mapM h
  cases rest with
  | nil =>
    obtain ⟨c, cs, hscore, hnone, rfl⟩ := List.forall₂_cons_left_iff.mp hall
    obtain rfl := List.forall₂_nil_left_iff.mp hnone
    exact scored_single (scorePathBy_single hscore)
  | cons second others => exact scored_several hpositive hfound hall

/-! ### The best candidate -/

theorem preferredPath_spec (candidate : PathCandidate) (rest : List PathCandidate) :
    preferredPath candidate rest ∈ candidate :: rest ∧ ∀ c ∈ candidate :: rest,
      preference (preferredPath candidate rest).toRouteCandidate ≤ preference c.toRouteCandidate := by
  induction rest generalizing candidate with
  | nil => exact ⟨List.mem_cons_self, fun c hc => by rw [List.mem_singleton.mp hc]; exact le_rfl⟩
  | cons other rest ih =>
    unfold preferredPath
    rw [List.foldl_cons]
    split
    · rename_i hless
      obtain ⟨hmem, hle⟩ := ih other
      refine ⟨List.mem_cons_of_mem _ hmem, fun c hc => ?_⟩
      rcases List.mem_cons.mp hc with rfl | hrest
      · exact (hle other List.mem_cons_self).trans hless.le
      · exact hle c hrest
    · rename_i hnot
      obtain ⟨hmem, hle⟩ := ih candidate
      refine ⟨?_, fun c hc => ?_⟩
      · rcases List.mem_cons.mp hmem with heq | hrest
        · exact List.mem_cons.mpr (.inl heq)
        · exact List.mem_cons_of_mem _ (List.mem_cons_of_mem _ hrest)
      · rcases List.mem_cons.mp hc with rfl | hc
        · exact hle c List.mem_cons_self
        · rcases List.mem_cons.mp hc with rfl | hrest
          · exact (hle candidate List.mem_cons_self).trans (not_lt.mp hnot)
          · exact hle c (List.mem_cons_of_mem _ hrest)

theorem preferredPath_undominated (hscored : Scored (candidate :: others)) {d : PathCandidate}
    (hd : d ∈ candidate :: others) : ¬ d.Dominates (preferredPath candidate others) := by
  intro hdominates
  obtain ⟨hmem, hle⟩ := preferredPath_spec candidate others
  have hless := hscored.better _ hmem d hd hdominates
  have hbefore : preference d.toRouteCandidate <
    preference (preferredPath candidate others).toRouteCandidate :=
    Prod.Lex.toLex_lt_toLex.mpr (.inl (neg_lt_neg hless))
  exact absurd hbefore (not_lt.mpr (hle d hd))

theorem byEdges_distinct (paths : List PathResult) :
    (byEdges paths).Pairwise fun p q => p.edgeIds ≠ q.edgeIds := by
  induction paths with
  | nil => exact List.Pairwise.nil
  | cons path rest ih =>
    refine List.pairwise_cons.mpr ⟨fun q hq heq => ?_, ih.filter _⟩
    have hne := of_decide_eq_true (List.mem_filter.mp hq).2
    exact hne heq.symm

/-! ### Plans -/

theorem mem_blockedEdges {edgeId : String} : edgeId ∈ blockedEdges affectedEdgeIds ↔
    edgeId ∈ affectedEdgeIds := by
  unfold blockedEdges
  rw [List.mem_insertionSort, List.mem_dedup]

theorem passable_blockedEdges :
    Passable network vehicleWeightTons (blockedEdges affectedEdgeIds) =
      Passable network vehicleWeightTons affectedEdgeIds := by
  unfold Passable RoadEdgeSnapshot.isAvailable
  simp only [mem_blockedEdges]

theorem apart_blockedEdges :
    Apart network vehicleWeightTons (blockedEdges affectedEdgeIds) startNodeId endNodeId ↔
      Apart network vehicleWeightTons affectedEdgeIds startNodeId endNodeId := by
  unfold Apart
  rw [passable_blockedEdges]

theorem remainingPaths_found {fuel : ℕ} (hpositive : PositiveNetwork network)
    (h : remainingPaths fuel network context (blockedEdges affectedEdgeIds) = .ok paths) :
    (∀ p ∈ paths, Found network context affectedEdgeIds p) ∧
      (paths = [] ↔ Apart network context.activeVehicleWeightTons affectedEdgeIds context.startNodeId
        context.destinationNodeId) := by
  obtain ⟨results, hresults, hpaths⟩ := bind_eq_ok.mp h
  cases hpaths
  have hall := forall₂_of_mapM hresults
  have hfind : ∀ result ∈ results, ∃ objective, find fuel network context.startNodeId
      context.destinationNodeId objective context.activeVehicleWeightTons (blockedEdges affectedEdgeIds) =
        some result := by
    intro result hresult
    obtain ⟨objective, -, hobjective⟩ := exists_of_forall₂ hall hresult
    exact ⟨objective, searched_eq_ok.mp hobjective⟩
  refine ⟨fun p hp => ?_, fun hnil => ?_, fun hapart => ?_⟩
  · obtain ⟨result, hresult, hsome⟩ := List.mem_filterMap.mp hp
    obtain ⟨objective, hobjective⟩ := hfind result hresult
    exact ⟨objective, (find_best (hpositive.weight objective) hobjective).2 p hsome⟩
  · obtain ⟨result, hresult, -⟩ := exists_of_forall₂ hall.flip
      (List.mem_cons_self : RouteObjective.fastest ∈ RouteObjective.all)
    obtain ⟨objective, hobjective⟩ := hfind result hresult
    rw [← apart_blockedEdges]
    exact (find_none_iff hobjective).mp (List.filterMap_eq_nil_iff.mp hnil result hresult)
  · refine List.filterMap_eq_nil_iff.mpr fun result hresult => ?_
    obtain ⟨objective, hobjective⟩ := hfind result hresult
    exact (find_none_iff hobjective).mpr (apart_blockedEdges.mpr hapart)

end

end RoutingService

/-- **A sound plan**: different ways for the vehicle, none along an edge that is affected or blocked, with
scores up to a hundred; the one that is recommended is among them and no other one is better in every
respect. -/
structure SoundPlan (network : RoadNetworkSnapshot) (context : RoutePlanningContext)
    (affectedEdgeIds : List String) (plan : PathPlan) : Prop where
  distinct : plan.candidates.Pairwise fun c d => c.edgeIds ≠ d.edgeIds
  way : ∀ c ∈ plan.candidates, Walk (Passable network context.activeVehicleWeightTons affectedEdgeIds)
    context.startNodeId c.nodeIds c.edgeIds context.destinationNodeId
  minutes : ∀ c ∈ plan.candidates, c.estimatedMinutes = ⌈network.edgeSum RoadEdgeSnapshot.minutes c.edgeIds⌉
  distanceKm : ∀ c ∈ plan.candidates,
    c.distanceKm = quantize 2 (network.edgeSum RoadEdgeSnapshot.distanceKm c.edgeIds)
  riskCost : ∀ c ∈ plan.candidates, c.riskCost = network.edgeSum RoadEdgeSnapshot.riskPenalty c.edgeIds
  scored : RoutingService.Scored plan.candidates
  recommended : ∃ c ∈ plan.candidates, plan.recommended = some c ∧
    plan.result.recommendedRoute = some c.routeId ∧
    ∃ path, plan.result.recommendedPath = some path ∧ c.Of path
  undominated : ∀ c, plan.recommended = some c → ∀ d ∈ plan.candidates, ¬ d.Dominates c
  decision : affectedEdgeIds ≠ [] → plan.result.decision = .reroute

namespace RoutingService

variable {path : PathResult} {rest : List PathResult}

section

variable {v : RoutingService} {network : RoadNetworkSnapshot} {context : RoutePlanningContext}
  {capacityStatus : CapacityStatus} {affectedEdgeIds : List String} {snapshot : Option RoadNetworkSnapshot}
  {fuel : ℕ} {plan : PathPlan}

theorem blockedEdges_ne_nil (h : affectedEdgeIds ≠ []) : blockedEdges affectedEdgeIds ≠ [] := by
  intro hnil
  obtain ⟨edgeId, hmem⟩ := List.exists_mem_of_ne_nil affectedEdgeIds h
  have hblocked := mem_blockedEdges.mpr hmem
  rw [hnil] at hblocked
  cases hblocked

def plannedBy (network : RoadNetworkSnapshot) (affectedEdgeIds : List String)
    (originalPath : Option PathResult) (paths : List PathResult) (candidate : PathCandidate)
    (others : List PathCandidate) : PathPlan where
  result := planned network (blockedEdges affectedEdgeIds) originalPath paths
    ((candidate :: others).map PathCandidate.toRouteCandidate)
    (preferredPath candidate others).toRouteCandidate
  candidates := candidate :: others
  recommended := some (preferredPath candidate others)

theorem planBy_ok (hnetwork : v.network snapshot = some network) (hopen : capacityStatus.closed = false)
    (h : v.planBy keep fuel context capacityStatus affectedEdgeIds snapshot = .ok plan) :
    ∃ paths, remainingPaths fuel network context (blockedEdges affectedEdgeIds) = .ok paths ∧
      (paths = [] ∧ plan.result.noReachableRoute = true ∧ plan.result.requiresManualReview = true ∨
        ∃ path rest originalPath candidate others, byEdges paths = path :: rest ∧
          v.scorePathsBy keep network.version path rest = .ok (candidate :: others) ∧
          plan = plannedBy network affectedEdgeIds originalPath (path :: rest) candidate others) := by
  unfold planBy at h
  rw [hnetwork] at h
  simp only [hopen, Bool.false_eq_true, if_false] at h
  obtain ⟨originalPath, -, h⟩ := bind_eq_ok.mp h
  obtain ⟨paths, hpaths, h⟩ := bind_eq_ok.mp h
  refine ⟨paths, hpaths, ?_⟩
  split at h
  · rename_i hnil
    cases h
    exact .inl ⟨byEdges_eq_nil.mp hnil, rfl, rfl⟩
  · rename_i path rest hbyEdges
    obtain ⟨candidates, hscores, h⟩ := bind_eq_ok.mp h
    split at h
    · cases h
    · rename_i candidate others
      cases h
      exact .inr ⟨path, rest, originalPath, candidate, others, hbyEdges, hscores, rfl⟩

theorem plannedBy_sound (hpositive : PositiveNetwork network) {originalPath : Option PathResult}
    (hfound : ∀ p ∈ paths, Found network context affectedEdgeIds p) (hbyEdges : byEdges paths = path :: rest)
    (hscores : v.scorePathsBy id network.version path rest = .ok (candidate :: others)) :
    SoundPlan network context affectedEdgeIds
      (plannedBy network affectedEdgeIds originalPath (path :: rest) candidate others) := by
  have hfound' : ∀ p ∈ path :: rest, Found network context affectedEdgeIds p := by
    intro p hp
    rw [← hbyEdges] at hp
    exact hfound p (mem_byEdges hp)
  have hscored := scorePathsBy_ok hpositive hfound' hscores
  have hof : List.Forall₂ (fun p c => PathCandidate.Of c p) (path :: rest) (candidate :: others) :=
    (forall₂_of_mapM hscores).imp fun p c hc => scorePathBy_of hc
  have hbest : ∀ c ∈ candidate :: others, ∃ p ∈ path :: rest,
    c.Of p ∧ Found network context affectedEdgeIds p := by
    intro c hc
    obtain ⟨p, hp, hpc⟩ := exists_of_forall₂ hof hc
    exact ⟨p, hp, hpc, hfound' p hp⟩
  have hnodup : ((path :: rest).map PathResult.edgeIds).Nodup :=
    List.pairwise_map.mpr (hbyEdges ▸ byEdges_distinct paths)
  have hedges : (candidate :: others).map (fun c => c.edgeIds) = (path :: rest).map PathResult.edgeIds := by
    rw [← List.forall₂_eq_eq_eq, List.forall₂_map_left_iff, List.forall₂_map_right_iff]
    exact hof.flip.imp fun c p hpc => hpc.edgeIds
  obtain ⟨hmem, -⟩ := preferredPath_spec candidate others
  refine ⟨?_, fun c hc => ?_, fun c hc => ?_, fun c hc => ?_, fun c hc => ?_, hscored, ?_, ?_,
    fun haffected => ?_⟩
  · exact List.pairwise_map.mp (hedges ▸ hnodup)
  · obtain ⟨p, -, hpc, objective, hp⟩ := hbest c hc
    rw [hpc.nodeIds, hpc.edgeIds, ← passable_blockedEdges]
    exact hp.walk
  · obtain ⟨p, -, hpc, objective, hp⟩ := hbest c hc
    rw [hpc.estimatedMinutes, hpc.edgeIds, hp.estimatedMinutes]
  · obtain ⟨p, -, hpc, objective, hp⟩ := hbest c hc
    rw [hpc.distanceKm, hpc.edgeIds, hp.distanceKm]
  · obtain ⟨p, -, hpc, objective, hp⟩ := hbest c hc
    rw [hpc.riskCost, hpc.edgeIds, hp.riskCost]
  · obtain ⟨p, hp, hpc, -⟩ := hbest _ hmem
    refine ⟨preferredPath candidate others, hmem, rfl, rfl, p, ?_, hpc⟩
    cases hfind : (path :: rest).find? fun p => p.edgeIds = (preferredPath candidate others).edgeIds with
    | none => exact absurd (decide_eq_true hpc.edgeIds.symm) (List.find?_eq_none.mp hfind p hp)
    | some q =>
      have hq := List.find?_some hfind
      have hsame := List.inj_on_of_nodup_map hnodup (List.mem_of_find?_eq_some hfind) hp
        ((of_decide_eq_true hq).trans hpc.edgeIds)
      rw [← hsame]
      exact hfind
  · intro c hc d hd
    cases hc
    exact preferredPath_undominated hscored hd
  · show (if _ then _ else _) = _
    rw [if_pos (.inl (blockedEdges_ne_nil haffected))]

theorem planBy_sound (hpositive : PositiveNetwork network) (hnetwork : v.network snapshot = some network)
    (h : v.planBy id fuel context capacityStatus affectedEdgeIds snapshot = .ok plan)
    (hrouted : plan.result.requiresManualReview = false) :
      SoundPlan network context affectedEdgeIds plan := by
  cases hopen : capacityStatus.closed with
  | true =>
    unfold planBy at h
    rw [hnetwork] at h
    simp only [hopen, if_true] at h
    cases h
    cases hrouted
  | false =>
    obtain ⟨paths, hpaths, ⟨-, -, hreview⟩ | ⟨path, rest, originalPath, candidate, others, hbyEdges, hscores,
      rfl⟩⟩ := planBy_ok hnetwork hopen h
    · rw [hreview] at hrouted
      cases hrouted
    · exact plannedBy_sound hpositive (remainingPaths_found hpositive hpaths).1 hbyEdges hscores

theorem planBy_noReachableRoute (hpositive : PositiveNetwork network)
    (hnetwork : v.network snapshot = some network) (hopen : capacityStatus.closed = false)
    (h : v.planBy id fuel context capacityStatus affectedEdgeIds snapshot = .ok plan) :
    plan.result.noReachableRoute = true ↔ Apart network context.activeVehicleWeightTons affectedEdgeIds
      context.startNodeId context.destinationNodeId := by
  obtain ⟨paths, hpaths, ⟨hnil, hnone, -⟩ | ⟨path, rest, originalPath, candidate, others, hbyEdges, -,
    rfl⟩⟩ :=
    planBy_ok hnetwork hopen h
  · exact iff_of_true hnone ((remainingPaths_found hpositive hpaths).2.mp hnil)
  · refine iff_of_false (fun hnone => by cases hnone) fun hapart => ?_
    rw [(remainingPaths_found hpositive hpaths).2.mpr hapart] at hbyEdges
    cases hbyEdges

/-! ### Where there is a plan -/

theorem normalizedBy_total {value maximum : ℚ}
    (h : single = false → maximum ≠ 0) : ∃ x, normalizedBy keep single value maximum = .ok x := by
  unfold normalizedBy
  cases single with
  | true => exact ⟨0, rfl⟩
  | false => exact ⟨_, by rw [if_neg Bool.false_ne_true, if_neg (h rfl)]⟩

theorem scorePathsBy_total {version : ℤ} (hpositive : PositiveNetwork network)
    (hdistance : ∀ edge ∈ network.edges, 1 / 200 ≤ edge.distanceKm)
    (hfound : ∀ p ∈ path :: rest, Found network context affectedEdgeIds p)
    (hdistinct : (path :: rest).Pairwise fun p q => p.edgeIds ≠ q.edgeIds) :
    ∃ candidates, v.scorePathsBy keep version path rest = .ok candidates := by
  have hmoved : rest.isEmpty = false → ∃ p ∈ path :: rest, p.edgeIds ≠ [] := by
    cases rest with
    | nil => intro hempty; cases hempty
    | cons second others =>
      intro _
      by_cases hfirst : path.edgeIds = []
      · refine ⟨second, List.mem_cons_of_mem _ List.mem_cons_self, fun hsecond => ?_⟩
        exact (List.pairwise_cons.mp hdistinct).1 second List.mem_cons_self (hfirst.trans hsecond.symm)
      · exact ⟨path, List.mem_cons_self, hfirst⟩
  refine exists_mapM_eq_ok.mpr fun p hp => ?_
  obtain ⟨minutes, hminutes⟩ : ∃ x, normalizedBy keep rest.isEmpty p.estimatedMinutes
      (maximum (fun p => p.estimatedMinutes) path rest) = .ok x := normalizedBy_total fun hseveral => by
    obtain ⟨q, hq, hne⟩ := hmoved hseveral
    have hpos : (0 : ℚ) < q.estimatedMinutes := by exact_mod_cast (hfound q hq).minutes_pos hpositive hne
    exact (hpos.trans_le ((maximum_spec (fun p => (p.estimatedMinutes : ℚ)) path rest).2 q hq)).ne'
  obtain ⟨distance, hdistance⟩ : ∃ x, normalizedBy keep rest.isEmpty p.distanceKm
      (maximum PathResult.distanceKm path rest) = .ok x := normalizedBy_total fun hseveral => by
    obtain ⟨q, hq, hne⟩ := hmoved hseveral
    have hpos := (hfound q hq).distance_pos hdistance hne
    exact (hpos.trans_le ((maximum_spec PathResult.distanceKm path rest).2 q hq)).ne'
  exact ⟨_, bind_eq_ok.mpr ⟨minutes, hminutes, bind_eq_ok.mpr ⟨distance, hdistance, rfl⟩⟩⟩

theorem originalSnapshot_nonneg (hpositive : PositiveNetwork network) (blocked : List String) :
    ∀ edge ∈ (originalSnapshot network blocked).edges, 0 ≤ edge.weight .fastest := by
  intro edge hedge
  obtain ⟨edge', hedge', rfl⟩ := List.mem_map.mp hedge
  exact (hpositive.minutes edge' hedge').le

theorem searched_settles (hnonneg : ∀ edge ∈ network.edges, 0 ≤ edge.weight objective)
    (startNodeId endNodeId : String) (vehicleWeightTons : ℚ) (excludedEdgeIds : List String) :
    Settles fun fuel =>
      searched (find fuel network startNodeId endNodeId objective vehicleWeightTons excludedEdgeIds) := by
  obtain ⟨fuel, result, hresult⟩ := find_finishes hnonneg
  exact ⟨fuel, result, fun n hn => searched_eq_ok.mpr (hresult n hn)⟩

theorem remainingPaths_settles (hpositive : PositiveNetwork network) (blocked : List String) :
    Settles fun fuel => remainingPaths fuel network context blocked := by
  have hall : Settles fun fuel => RouteObjective.all.mapM fun objective =>
      searched (find fuel network context.startNodeId context.destinationNodeId objective
        context.activeVehicleWeightTons blocked) :=
    Settles.mapM fun objective _ =>
      searched_settles (fun edge hedge => (hpositive.weight objective edge hedge).le) _ _ _ _
  exact hall.bind fun _ => Settles.const _

theorem planBy_settles (hpositive : PositiveNetwork network) (hnetwork : v.network snapshot = some network)
    (hdistance : (∀ edge ∈ network.edges, 1 / 200 ≤ edge.distanceKm) ∨ Apart network
      context.activeVehicleWeightTons affectedEdgeIds context.startNodeId context.destinationNodeId) :
    Settles fun fuel => v.planBy keep fuel context capacityStatus affectedEdgeIds snapshot := by
  unfold planBy
  rw [hnetwork]
  cases hopen : capacityStatus.closed with
  | true => exact Settles.const _
  | false =>
    refine (searched_settles (originalSnapshot_nonneg hpositive _) _ _ _ _).bind fun originalPath => ?_
    refine (remainingPaths_settles hpositive _).bind_of fun fuel paths hpaths => ?_
    obtain ⟨hfound, hnone⟩ := remainingPaths_found hpositive hpaths
    cases hbyEdges : byEdges paths with
    | nil => exact Settles.const _
    | cons path rest =>
      have hdistance' := hdistance.resolve_right fun hapart => by
        rw [hnone.mpr hapart] at hbyEdges
        cases hbyEdges
      obtain ⟨candidates, hcandidates⟩ : ∃ candidates,
          v.scorePathsBy keep network.version path rest = .ok candidates :=
          scorePathsBy_total hpositive hdistance'
        (fun p hp => hfound p (mem_byEdges (hbyEdges ▸ hp))) (hbyEdges ▸ byEdges_distinct paths)
      simp only [hcandidates]
      cases candidates with
      | nil => cases forall₂_of_mapM hcandidates
      | cons candidate others => exact Settles.const _

end

end RoutingService

/-- **The route that is recommended**: for a network whose roads take time and have a length, in rational
numbers, a plan that recommends a route is sound, no route is reachable exactly when there is none, and then
there is a plan that says so; there is one in any case where each road is long enough to be displayed. -/
theorem plan_sound (v : RoutingService) (context : RoutePlanningContext) (capacityStatus : CapacityStatus)
    (affectedEdgeIds : List String) (snapshot : Option RoadNetworkSnapshot) {network : RoadNetworkSnapshot}
    (hnetwork : v.network snapshot = some network) (hpositive : PositiveNetwork network) :
    (∀ fuel plan, v.planBy id fuel context capacityStatus affectedEdgeIds snapshot = .ok plan →
      (plan.result.requiresManualReview = false → SoundPlan network context affectedEdgeIds plan) ∧
      (capacityStatus.closed = false → (plan.result.noReachableRoute = true ↔
        Apart network context.activeVehicleWeightTons affectedEdgeIds context.startNodeId
          context.destinationNodeId))) ∧
    ((∀ edge ∈ network.edges, 1 / 200 ≤ edge.distanceKm) ∨ Apart network context.activeVehicleWeightTons
        affectedEdgeIds context.startNodeId context.destinationNodeId →
      Settles fun fuel => v.planBy id fuel context capacityStatus affectedEdgeIds snapshot) :=
  ⟨fun _ _ h => ⟨RoutingService.planBy_sound hpositive hnetwork h,
      fun hopen => RoutingService.planBy_noReachableRoute hpositive hnetwork hopen h⟩,
    RoutingService.planBy_settles hpositive hnetwork⟩

def triangleService : RoutingService where
  routeProvider := none
  memoryAdoptionThreshold := 1 / 2
  roadNetwork := some triangle
  hasPathFinder := true
  sha256 := fun text => if text = "E2"
    then "713a5bb2d170c8684937ab1dd0311be88e0d95fbd9b253333965841517794f64"
    else "af707b7131f502bed2cd7b9362e898a3db71c7e2cc38ee5a6a08664bf1d5d790"

def triangleContext : RoutePlanningContext := ⟨"A", "B", none, 2, 2⟩

/-- The direct way is the fastest one, the one over C comes first among the shortest. -/
theorem plan_sound_triangle : ∃ plan,
    triangleService.planBy id 9 triangleContext .available [] none = .ok plan ∧
      plan.candidates.map (fun c => c.edgeIds) = [["E2"], ["E1", "E3"]] ∧
      SoundPlan triangle triangleContext [] plan := by
  have hpositive : PositiveNetwork triangle := ⟨by decide +kernel, by decide +kernel⟩
  have hplan : (triangleService.planBy id 9 triangleContext .available [] none).map (fun plan =>
      (plan.result.requiresManualReview, plan.candidates.map fun c => c.edgeIds)) =
        .ok (false, [["E2"], ["E1", "E3"]]) := by decide +kernel
  cases hok : triangleService.planBy id 9 triangleContext .available [] none with
  | error e =>
    rw [hok] at hplan
    cases hplan
  | ok plan =>
    rw [hok] at hplan
    obtain ⟨hrouted, hcandidates⟩ := Prod.mk.inj (Except.ok.inj hplan)
    have hsound := plan_sound triangleService triangleContext .available [] none rfl hpositive
    exact ⟨plan, rfl, hcandidates, (hsound.1 9 plan hok).1 hrouted⟩

end CountyFlow.Graph
