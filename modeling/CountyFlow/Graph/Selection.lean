import Mathlib.Tactic.Linarith
import CountyFlow.Graph.Allotment
import CountyFlow.Lib.Settling
import CountyFlow.Road.Optimal

/-!
# The vehicle that is selected

`FleetAllocationService.allocate` judges every vehicle of its provider and takes the best of those that are
eligible.  Nothing is asked of the road network here: a search that ends says whether there is a way, and
where no edge takes negative minutes every search ends.
-/

namespace CountyFlow.Graph

open CountyFlow.Lib CountyFlow.Road

/-! ### Feasible vehicles -/

/-- There is a way for a vehicle of some weight from a node to another. -/
def Drivable (network : RoadNetworkSnapshot) (vehicleWeightTons : ℚ) (fromNodeId toNodeId : String) : Prop :=
  ¬ Apart network vehicleWeightTons [] fromNodeId toNodeId

structure FleetVehicleSnapshot.Fit (vehicle : FleetVehicleSnapshot) (request : FleetAllocationRequest) :
    Prop where
  replaces : vehicle.vehicleId ≠ request.originalVehicleId
  available : vehicle.status = "AVAILABLE"
  driver : ∃ driver, vehicle.driver = some driver ∧ driver.status = "ON_DUTY" ∧
    vehicle.licenseMatches driver = true
  capacity : request.cargoWeightKg ≤ vehicle.remainingLoadKg
  capability : request.cargoType = "COLD_CHAIN" → vehicle.cargoCapability = "COLD_CHAIN"

/-- The vehicle is fit, and can drive to the incident and on to the destination. -/
structure FleetVehicleSnapshot.Feasible (vehicle : FleetVehicleSnapshot) (network : RoadNetworkSnapshot)
    (request : FleetAllocationRequest) : Prop where
  fit : vehicle.Fit request
  pickup : Drivable network vehicle.grossWeightTons vehicle.currentNodeId request.incidentNodeId
  delivery : ∀ destination, request.destinationNodeId = some destination →
    Drivable network vehicle.grossWeightTons request.incidentNodeId destination

theorem reason_eq_nil {p : Prop} [Decidable p] {reason : String} :
    (if p then [reason] else []) = [] ↔ ¬ p := by
  by_cases hp : p <;> simp [hp]

variable {vehicle : FleetVehicleSnapshot}

theorem cheapReasons_eq_nil_iff {request : FleetAllocationRequest} :
    cheapReasons vehicle request = [] ↔ vehicle.Fit request := by
  unfold cheapReasons
  rw [List.append_eq_nil_iff, List.append_eq_nil_iff, List.append_eq_nil_iff, List.append_eq_nil_iff,
    reason_eq_nil, reason_eq_nil, reason_eq_nil, reason_eq_nil]
  constructor
  · rintro ⟨⟨⟨⟨horiginal, hstatus⟩, hdriver⟩, hcapacity⟩, hcargo⟩
    refine ⟨horiginal, not_not.mp hstatus, ?_, not_lt.mp hcapacity,
      fun hcold => by_contra fun hne => hcargo ⟨hcold, hne⟩⟩
    split at hdriver
    · cases hdriver
    · rename_i driver hsome
      obtain ⟨hduty, hlicense⟩ := List.append_eq_nil_iff.mp hdriver
      refine ⟨driver, hsome, not_not.mp (reason_eq_nil.mp hduty), ?_⟩
      by_contra hno
      rw [if_neg hno] at hlicense
      cases hlicense
  · intro h
    obtain ⟨driver, hsome, hduty, hlicense⟩ := h.driver
    refine ⟨⟨⟨⟨h.replaces, not_not.mpr h.available⟩, ?_⟩, not_lt.mpr h.capacity⟩,
      fun hcold => hcold.2 (h.capability hcold.1)⟩
    rw [hsome]
    show (if driver.status ≠ "ON_DUTY" then _ else []) ++ (if _ then [] else _) = []
    rw [if_neg (not_not.mpr hduty), if_pos hlicense]
    rfl

/-! ### One vehicle -/

variable {fromNodeId toNodeId : String} {vehicleWeightTons : ℚ}

theorem estimate_ok {fuel : ℕ} {network : RoadNetworkSnapshot} {path : Option PathResult}
    (h : estimate fuel network fromNodeId toNodeId vehicleWeightTons = .ok path) :
    path.isSome = true ↔ Drivable network vehicleWeightTons fromNodeId toNodeId := by
  unfold Drivable
  rw [← find_none_iff (searched_eq_ok.mp h)]
  cases path <;> simp

variable {reasons : List String}

theorem unreachable_ne_nil {fuel : ℕ} {network : RoadNetworkSnapshot} {reason : String}
    (h : unreachable fuel network fromNodeId toNodeId reason = .ok reasons) : reasons ≠ [] := by
  obtain ⟨free, -, h⟩ := bind_eq_ok.mp h
  cases h
  simp

theorem deliveryReasons_eq_nil_iff {fuel : ℕ} {network : RoadNetworkSnapshot}
    {request : FleetAllocationRequest}
    (h : deliveryReasons fuel network request vehicleWeightTons = .ok reasons) :
    reasons = [] ↔ ∀ destination, request.destinationNodeId = some destination →
      Drivable network vehicleWeightTons request.incidentNodeId destination := by
  unfold deliveryReasons at h
  split at h
  · rename_i hnone
    cases h
    simp [hnone]
  · rename_i destination hsome
    obtain ⟨delivery, hdelivery, h⟩ := bind_eq_ok.mp h
    have hway := estimate_ok hdelivery
    simp only [hsome, Option.some.injEq, forall_eq']
    split at h
    · rename_i hfound
      cases h
      exact iff_of_true rfl (hway.mp hfound)
    · rename_i hmissing
      exact iff_of_false (unreachable_ne_nil h) fun hdrivable => hmissing (hway.mpr hdrivable)

/-- What `_evaluate` makes of a vehicle. -/
structure Judged (network : RoadNetworkSnapshot) (request : FleetAllocationRequest)
    (vehicle : FleetVehicleSnapshot) (c : VehicleCandidate) : Prop where
  vehicleId : c.vehicleId = vehicle.vehicleId
  driverId : c.driverId = vehicle.driver.map FleetDriverSnapshot.driverId
  eligible : c.eligible = true ↔ vehicle.Feasible network request
  scored : c.eligible = true → ∃ pickup, c.pickupRoute = some pickup ∧
    c.score = some (fleetScore vehicle request pickup)

variable {c : VehicleCandidate}

theorem evaluate_judged {fuel : ℕ} {network : RoadNetworkSnapshot} {request : FleetAllocationRequest}
    (h : vehicle.evaluate fuel network request = .ok c) : Judged network request vehicle c := by
  unfold FleetVehicleSnapshot.evaluate at h
  obtain ⟨pickup, hpickup, h⟩ := bind_eq_ok.mp h
  have hway := estimate_ok hpickup
  split at h
  · obtain ⟨more, -, h⟩ := bind_eq_ok.mp h
    cases h
    refine ⟨rfl, rfl, iff_of_false (fun heligible => by cases heligible) fun hfeasible => ?_,
      fun heligible => by cases heligible⟩
    have hnone := hway.mpr hfeasible.pickup
    cases hnone
  · rename_i route
    obtain ⟨more, hmore, h⟩ := bind_eq_ok.mp h
    cases h
    refine ⟨rfl, rfl, ?_, fun _ => ⟨route, rfl, rfl⟩⟩
    show (cheapReasons vehicle request ++ more).isEmpty = true ↔ _
    rw [List.isEmpty_iff, List.append_eq_nil_iff, cheapReasons_eq_nil_iff, deliveryReasons_eq_nil_iff hmore]
    exact ⟨fun ⟨hfit, hdelivery⟩ => ⟨hfit, hway.mp rfl, hdelivery⟩, fun hf => ⟨hf.fit, hf.delivery⟩⟩

/-! ### The ranking -/

/-- A candidate comes before another one: its score is greater, or the same and it arrives earlier, or at the
same time and its id is smaller. -/
def VehicleCandidate.Better (c d : VehicleCandidate) : Prop :=
  ∃ s t p q, c.score = some s ∧ d.score = some t ∧ c.pickupRoute = some p ∧ d.pickupRoute = some q ∧
    (t < s ∨ t = s ∧ (p.estimatedMinutes < q.estimatedMinutes ∨
      p.estimatedMinutes = q.estimatedMinutes ∧ c.vehicleId < d.vehicleId))

theorem insertionSort_of_perm {α κ : Type*} [LinearOrder κ] {key : α → κ} {l l' : List α}
    [DecidableRel fun a b => key a ≤ key b] (hperm : l'.Perm l)
    (hinj : ∀ a ∈ l, ∀ b ∈ l, key a = key b → a = b) :
    l'.insertionSort (fun a b => key a ≤ key b) = l.insertionSort fun a b => key a ≤ key b := by
  have : Std.Total fun a b => key a ≤ key b := ⟨fun a b => le_total _ _⟩
  have : IsTrans α fun a b => key a ≤ key b := ⟨fun a b c => le_trans⟩
  refine List.Perm.eq_of_pairwise (fun a b ha hb hab hba => ?_) (List.pairwise_insertionSort _ _)
    (List.pairwise_insertionSort _ _) ?_
  · rw [List.mem_insertionSort] at ha hb
    exact hinj a (hperm.mem_iff.mp ha) b hb (le_antisymm hab hba)
  · exact (List.perm_insertionSort _ _).trans (hperm.trans (List.perm_insertionSort _ _).symm)

theorem sortKey_vehicleId {d : VehicleCandidate} (h : c.sortKey = d.sortKey) : c.vehicleId = d.vehicleId := by
  have hkeys := toLex.injective h
  exact (Prod.mk.inj (toLex.injective (Prod.mk.inj hkeys).2)).2

theorem ranked_of_perm {candidates candidates' : List VehicleCandidate} (hperm : candidates'.Perm candidates)
    (hnodup : (candidates.map VehicleCandidate.vehicleId).Nodup) :
    ranked candidates' = ranked candidates := by
  have hinj : ∀ (p : VehicleCandidate → Bool), ∀ a ∈ candidates.filter p, ∀ b ∈ candidates.filter p,
      a.vehicleId = b.vehicleId → a = b := fun p a ha b hb =>
    List.inj_on_of_nodup_map hnodup (List.mem_of_mem_filter ha) (List.mem_of_mem_filter hb)
  unfold ranked
  congr 1
  · exact insertionSort_of_perm (hperm.filter _) fun a ha b hb hkey =>
      hinj _ a ha b hb (sortKey_vehicleId hkey)
  · exact insertionSort_of_perm (hperm.filter _) fun a ha b hb hkey => hinj _ a ha b hb hkey

theorem ranked_split (candidates : List VehicleCandidate) :
    ranked candidates = (ranked candidates).filter (fun c => c.eligible) ++
      (ranked candidates).filter fun c => !c.eligible := by
  have hyes : ∀ c ∈ (candidates.filter fun c => c.eligible).insertionSort
      (fun a b => a.sortKey ≤ b.sortKey), c.eligible = true := by
    intro c hc
    rw [List.mem_insertionSort] at hc
    exact (List.mem_filter.mp hc).2
  have hno : ∀ c ∈ (candidates.filter fun c => !c.eligible).insertionSort
      (fun a b => a.vehicleId ≤ b.vehicleId), (!c.eligible) = true := by
    intro c hc
    rw [List.mem_insertionSort] at hc
    exact (List.mem_filter.mp hc).2
  unfold ranked
  generalize (candidates.filter fun c => c.eligible).insertionSort (fun a b => a.sortKey ≤ b.sortKey) = yes
    at hyes ⊢
  generalize (candidates.filter fun c => !c.eligible).insertionSort (fun a b => a.vehicleId ≤ b.vehicleId) =
    no at hno ⊢
  have hyes' : yes.filter (fun c => !c.eligible) = [] :=
    List.filter_eq_nil_iff.mpr fun c hc => by simp [hyes c hc]
  have hno' : no.filter (fun c => c.eligible) = [] :=
    List.filter_eq_nil_iff.mpr fun c hc => by simpa using hno c hc
  rw [List.filter_append, List.filter_append, List.filter_eq_self.mpr hyes, List.filter_eq_self.mpr hno,
    hyes', hno', List.append_nil, List.nil_append]

theorem better_iff {d : VehicleCandidate} {p q : PathResult} {s t : ℚ} (hp : c.pickupRoute = some p)
    (hs : c.score = some s) (hq : d.pickupRoute = some q) (ht : d.score = some t) :
    c.Better d ↔ c.sortKey < d.sortKey := by
  unfold VehicleCandidate.Better VehicleCandidate.sortKey
  rw [Prod.Lex.toLex_lt_toLex, Prod.Lex.toLex_lt_toLex]
  simp only [hp, hs, hq, ht, Option.some.injEq, Option.getD_some, Option.map_some, neg_lt_neg_iff, neg_inj]
  constructor
  · rintro ⟨_, _, _, _, rfl, rfl, rfl, rfl, h⟩
    exact h.imp_right fun ⟨hsame, hlater⟩ => ⟨hsame.symm, hlater⟩
  · intro h
    exact ⟨s, t, p, q, rfl, rfl, rfl, rfl, h.imp_right fun ⟨hsame, hlater⟩ => ⟨hsame.symm, hlater⟩⟩

theorem head_ranked {candidates : List VehicleCandidate}
    (hnodup : (candidates.map VehicleCandidate.vehicleId).Nodup)
    (hscored : ∀ c ∈ candidates, c.eligible = true → ∃ pickup score, c.pickupRoute = some pickup ∧
      c.score = some score) :
    ((ranked candidates).head?.filter fun c => c.eligible) = some c ↔
      c ∈ candidates ∧ c.eligible = true ∧
        ∀ d ∈ candidates, d.eligible = true → d ≠ c → c.Better d := by
  have : Std.Total fun a b : VehicleCandidate => a.sortKey ≤ b.sortKey := ⟨fun a b => le_total _ _⟩
  have : IsTrans VehicleCandidate fun a b => a.sortKey ≤ b.sortKey := ⟨fun a b c => le_trans⟩
  have hsorted := List.pairwise_insertionSort (fun a b : VehicleCandidate => a.sortKey ≤ b.sortKey)
    (candidates.filter fun c => c.eligible)
  have hmem : ∀ d, d ∈ (candidates.filter fun c => c.eligible).insertionSort
      (fun a b => a.sortKey ≤ b.sortKey) ↔ d ∈ candidates ∧ d.eligible = true := by
    intro d
    rw [List.mem_insertionSort, List.mem_filter]
  have hbetter : ∀ a ∈ candidates, a.eligible = true → ∀ b ∈ candidates, b.eligible = true →
      (a.Better b ↔ a.sortKey < b.sortKey) := by
    intro a ha hea b hb heb
    obtain ⟨p, s, hp, hs⟩ := hscored a ha hea
    obtain ⟨q, t, hq, ht⟩ := hscored b hb heb
    exact better_iff hp hs hq ht
  unfold ranked
  generalize (candidates.filter fun c => c.eligible).insertionSort (fun a b => a.sortKey ≤ b.sortKey) = yes
    at hsorted hmem ⊢
  cases yes with
  | nil =>
    refine iff_of_false (fun h => ?_) fun h => List.not_mem_nil ((hmem c).mpr ⟨h.1, h.2.1⟩)
    obtain ⟨hhead, heligible⟩ := Option.filter_eq_some_iff.mp h
    have hc := List.mem_of_mem_head? hhead
    rw [List.nil_append, List.mem_insertionSort, List.mem_filter, heligible] at hc
    exact absurd hc.2 (by decide)
  | cons first rest =>
    obtain ⟨hfirst, heligible⟩ := (hmem first).mp List.mem_cons_self
    have hleast := (List.pairwise_cons.mp hsorted).1
    rw [List.cons_append, List.head?_cons, Option.filter_some_pos heligible, Option.some.injEq]
    constructor
    · rintro rfl
      refine ⟨hfirst, heligible, fun d hd hed hne => (hbetter _ hfirst heligible d hd hed).mpr ?_⟩
      have hrest : d ∈ rest := (List.mem_cons.mp ((hmem d).mpr ⟨hd, hed⟩)).resolve_left hne
      refine lt_of_le_of_ne (hleast d hrest) fun hkey => hne ?_
      exact (List.inj_on_of_nodup_map hnodup hfirst hd (sortKey_vehicleId hkey)).symm
    · rintro ⟨hc, hec, hbest⟩
      by_contra hne
      have hless := (hbetter c hc hec first hfirst heligible).mp (hbest first hfirst heligible hne)
      have hrest : c ∈ rest := (List.mem_cons.mp ((hmem c).mpr ⟨hc, hec⟩)).resolve_left fun heq =>
        hne heq.symm
      exact absurd hless (not_lt.mpr (hleast c hrest))

theorem head_ranked_none {candidates : List VehicleCandidate} :
    ((ranked candidates).head?.filter fun c => c.eligible) = none ↔
      ∀ c ∈ candidates, c.eligible = false := by
  constructor
  · intro hnone c hc
    by_contra heligible
    have hin : c ∈ (ranked candidates).filter fun c => c.eligible :=
      List.mem_filter.mpr ⟨(ranked_perm candidates).mem_iff.mpr hc, by simpa using heligible⟩
    rw [ranked_split] at hnone
    cases hyes : (ranked candidates).filter fun c => c.eligible with
    | nil =>
      rw [hyes] at hin
      cases hin
    | cons first rest =>
      have hfirst : first ∈ (ranked candidates).filter fun c => c.eligible := by
        rw [hyes]
        exact List.mem_cons_self
      rw [hyes, List.cons_append, List.head?_cons,
        Option.filter_some_pos (List.mem_filter.mp hfirst).2] at hnone
      cases hnone
  · intro hall
    refine Option.eq_none_iff_forall_ne_some.mpr fun c h => ?_
    obtain ⟨hhead, heligible⟩ := Option.filter_eq_some_iff.mp h
    have hc := hall c ((ranked_perm candidates).mem_iff.mp (List.mem_of_mem_head? hhead))
    rw [heligible] at hc
    cases hc

/-! ### Allocations -/

/-- **An allocation**: each vehicle is judged once, the eligible ones come first, and the best of them is
selected; none is exactly when no vehicle is feasible. -/
structure Allocation (v : FleetAllocationService) (network : RoadNetworkSnapshot)
    (request : FleetAllocationRequest) (candidates : List VehicleCandidate)
    (selected : Option VehicleCandidate) : Prop where
  judged : ∃ vehicles : List FleetVehicleSnapshot, vehicles.Perm v.vehicles ∧
    List.Forall₂ (Judged network request) vehicles candidates
  nodup : (candidates.map VehicleCandidate.vehicleId).Nodup
  eligibleFirst : candidates = candidates.filter (fun c => c.eligible) ++ candidates.filter fun c =>
    !c.eligible
  best : ∀ c, selected = some c ↔ c ∈ candidates ∧ c.eligible = true ∧
    ∀ d ∈ candidates, d.eligible = true → d ≠ c → c.Better d
  none : selected = none ↔ ∀ vehicle ∈ v.vehicles, ¬ vehicle.Feasible network request

section

variable {v : FleetAllocationService} {fuel : ℕ} {request : FleetAllocationRequest}
  {snapshot : Option RoadNetworkSnapshot} {candidates : List VehicleCandidate}
  {selected : Option VehicleCandidate}

theorem allocate_allocation (h : v.allocate fuel request snapshot = .ok (candidates, selected)) :
    Allocation v (snapshot.getD v.network) request candidates selected := by
  have hnodup := (allocate_ok h).1
  obtain ⟨evaluated, hevaluated, h⟩ := bind_eq_ok.mp h
  cases h
  have hjudged : List.Forall₂ (Judged (snapshot.getD v.network) request) v.vehicles evaluated :=
    (forall₂_of_mapM hevaluated).imp fun _ _ hok => evaluate_judged hok
  have hperm := ranked_perm evaluated
  have hnodup' : (evaluated.map VehicleCandidate.vehicleId).Nodup :=
    ((hperm.map VehicleCandidate.vehicleId).nodup_iff).mp hnodup
  obtain ⟨vehicles, hvehicles, hvehiclesPerm⟩ := List.perm_comp_forall₂ hperm hjudged.flip
  refine ⟨⟨vehicles, hvehiclesPerm, hvehicles.flip⟩, hnodup, ranked_split evaluated, fun c => ?_, ?_⟩
  · rw [head_ranked hnodup' fun c hc heligible => ?_]
    · simp only [hperm.mem_iff]
    · obtain ⟨vehicle, -, hc⟩ := exists_of_forall₂ hjudged hc
      obtain ⟨pickup, hpickup, hscore⟩ := hc.scored heligible
      exact ⟨pickup, _, hpickup, hscore⟩
  · rw [head_ranked_none]
    constructor
    · intro hnone vehicle hvehicle hfeasible
      obtain ⟨c, hc, hvc⟩ := exists_of_forall₂ hjudged.flip hvehicle
      have heligible := hvc.eligible.mpr hfeasible
      rw [hnone c hc] at heligible
      cases heligible
    · intro hnone c hc
      obtain ⟨vehicle, hvehicle, hvc⟩ := exists_of_forall₂ hjudged hc
      by_contra heligible
      exact hnone vehicle hvehicle (hvc.eligible.mp (by simpa using heligible))

theorem allocate_of_perm {v' : FleetAllocationService} (hvehicles : v'.vehicles.Perm v.vehicles)
    (hnetwork : v'.network = v.network) (h : v.allocate fuel request snapshot = .ok (candidates, selected)) :
    v'.allocate fuel request snapshot = .ok (candidates, selected) := by
  have hnodup := (allocate_ok h).1
  obtain ⟨evaluated, hevaluated, h⟩ := bind_eq_ok.mp h
  cases h
  obtain ⟨evaluated', hevaluated', hperm⟩ := mapM_perm hvehicles hevaluated
  have hnodup' : (evaluated.map VehicleCandidate.vehicleId).Nodup :=
    (((ranked_perm evaluated).map VehicleCandidate.vehicleId).nodup_iff).mp hnodup
  rw [← hnetwork] at hevaluated'
  refine bind_eq_ok.mpr ⟨evaluated', hevaluated', ?_⟩
  rw [ranked_of_perm hperm hnodup']
  rfl

end

/-! ### Where the searches end -/

section

variable {network : RoadNetworkSnapshot} {request : FleetAllocationRequest}

theorem estimate_settles (hminutes : ∀ edge ∈ network.edges, 0 ≤ edge.minutes) (fromNodeId toNodeId : String)
    (vehicleWeightTons : ℚ) :
    Settles fun fuel => estimate fuel network fromNodeId toNodeId vehicleWeightTons := by
  have hweights : ∀ edge ∈ network.edges, 0 ≤ edge.weight .fastest := hminutes
  obtain ⟨fuel, result, hresult⟩ := find_finishes hweights
  exact ⟨fuel, result, fun n hn => searched_eq_ok.mpr (hresult n hn)⟩

theorem unreachable_settles (hminutes : ∀ edge ∈ network.edges, 0 ≤ edge.minutes)
    (fromNodeId toNodeId reason : String) :
    Settles fun fuel => unreachable fuel network fromNodeId toNodeId reason :=
  (estimate_settles hminutes fromNodeId toNodeId 0).bind fun _ => Settles.const _

theorem deliveryReasons_settles (hminutes : ∀ edge ∈ network.edges, 0 ≤ edge.minutes)
    (vehicleWeightTons : ℚ) : Settles fun fuel => deliveryReasons fuel network request vehicleWeightTons := by
  unfold deliveryReasons
  cases request.destinationNodeId with
  | none => exact Settles.const []
  | some destination =>
    refine (estimate_settles hminutes _ _ _).bind fun delivery => ?_
    cases delivery with
    | none => exact unreachable_settles hminutes _ _ _
    | some path => exact Settles.const []

theorem evaluate_settles (hminutes : ∀ edge ∈ network.edges, 0 ≤ edge.minutes)
    (vehicle : FleetVehicleSnapshot) : Settles fun fuel => vehicle.evaluate fuel network request := by
  unfold FleetVehicleSnapshot.evaluate
  refine (estimate_settles hminutes _ _ _).bind fun pickup => ?_
  cases pickup with
  | none => exact (unreachable_settles hminutes _ _ _).bind fun more => Settles.const _
  | some route => exact (deliveryReasons_settles hminutes _).bind fun more => Settles.const _

theorem allocate_settles (v : FleetAllocationService) {snapshot : Option RoadNetworkSnapshot}
    (hminutes : ∀ edge ∈ (snapshot.getD v.network).edges, 0 ≤ edge.minutes) :
    Settles fun fuel => v.allocate fuel request snapshot := by
  unfold FleetAllocationService.allocate
  exact (Settles.mapM fun vehicle _ => evaluate_settles hminutes vehicle).bind fun _ => Settles.const _

end

/-- **The best feasible vehicle is selected**: whatever the network is, what `allocate` returns is the
allocation, and the same for every order of the vehicles; where no edge takes negative minutes it returns. -/
theorem allocation_best (v : FleetAllocationService) (request : FleetAllocationRequest)
    (snapshot : Option RoadNetworkSnapshot) :
    (∀ fuel candidates selected, v.allocate fuel request snapshot = .ok (candidates, selected) →
      Allocation v (snapshot.getD v.network) request candidates selected ∧
        ∀ v' : FleetAllocationService, v'.vehicles.Perm v.vehicles → v'.network = v.network →
          v'.allocate fuel request snapshot = .ok (candidates, selected)) ∧
      ((∀ edge ∈ (snapshot.getD v.network).edges, 0 ≤ edge.minutes) →
        Settles fun fuel => v.allocate fuel request snapshot) :=
  ⟨fun _ _ _ h => ⟨allocate_allocation h, fun _ hvehicles hnetwork => allocate_of_perm hvehicles hnetwork h⟩,
    allocate_settles v⟩

/-- A fleet of one vehicle, in `A`. -/
def loneFleet (network : RoadNetworkSnapshot) : FleetAllocationService where
  vehicles := [⟨"V2", "VAN", 500, 0, "GENERAL", 1, "AVAILABLE", "A", some ⟨"D2", "C1", "ON_DUTY"⟩⟩]
  network := network
  vehicleIds_nodup := by simp

/-- An incident in `B`. -/
def loneRequest : FleetAllocationRequest := ⟨"V1", "B", 10, "GENERAL", none⟩

theorem allocation_best_triangle : ∃ fuel candidates selected,
    (loneFleet triangle).allocate fuel loneRequest none = .ok (candidates, selected) ∧
      Allocation (loneFleet triangle) triangle loneRequest candidates selected := by
  have hminutes : ∀ edge ∈ triangle.edges, 0 ≤ edge.minutes := by decide +kernel
  obtain ⟨fuel, ⟨candidates, selected⟩, h⟩ :=
    (allocation_best (loneFleet triangle) loneRequest none).2 hminutes
  have hbest := (allocation_best (loneFleet triangle) loneRequest none).1 fuel candidates selected
  exact ⟨fuel, candidates, selected, h fuel le_rfl, (hbest (h fuel le_rfl)).1⟩

/-! ### A search that does not end -/

/-- A road from `A` to itself that takes back a minute. -/
def rewindEdge : RoadEdgeSnapshot :=
  { exampleEdge "E" "A" "A" 1 with baseMinutes := -1, congestionFactor := 1, bidirectional := false }

/-- The road, and a node apart from it. -/
def rewindNetwork : RoadNetworkSnapshot where
  version := 1
  nodes := ["A", "B"]
  edges := [rewindEdge]
  edgeIds_nodup := by simp

theorem rewind_adjacency : rewindNetwork.adjacency 1 [] "A" = [("A", rewindEdge)] := by decide +kernel

theorem rewind_search (fuel : ℕ) : (rewindNetwork.space .fastest 1 []).search "B" fuel
    ((rewindNetwork.space .fastest 1 []).frontier (Entry.first "A")) = none := by
  refine Space.search_descends (P := fun e => e.nodeId = "A") (v := "A") (by decide) (fun e he => he)
    (fun e he => ?_) fuel rfl rfl rfl
  refine ⟨e.follow .fastest ("A", rewindEdge), ?_, rfl, key_lt_iff.mpr (.inl ?_)⟩
  · show (rewindNetwork.adjacency 1 [] e.nodeId).map _ = _
    rw [he, rewind_adjacency]
    rfl
  · have hweight : rewindEdge.weight .fastest = -1 := by decide +kernel
    show e.cost + rewindEdge.weight .fastest < e.cost
    rw [hweight]
    linarith

theorem rewind_estimate (fuel : ℕ) : ¬ ∃ path, estimate fuel rewindNetwork "A" "B" 1 = .ok path := by
  rintro ⟨path, h⟩
  have hfind := searched_eq_ok.mp h
  unfold find at hfind
  rw [if_neg (by decide), if_neg (by decide)] at hfind
  simp only [rewind_search] at hfind
  cases hfind

/-- **Counterexample**: a vehicle that could go on and on saves time on each round, and there is no
allocation. -/
theorem negative_minutes_never_end :
    ¬ ∃ fuel result, (loneFleet rewindNetwork).allocate fuel loneRequest none = .ok result := by
  rintro ⟨fuel, result, h⟩
  obtain ⟨evaluated, hevaluated, -⟩ := bind_eq_ok.mp h
  obtain ⟨c, -, hc⟩ := exists_of_forall₂ (forall₂_of_mapM hevaluated).flip List.mem_cons_self
  obtain ⟨path, hpath, -⟩ := bind_eq_ok.mp hc
  exact rewind_estimate fuel ⟨path, hpath⟩

end CountyFlow.Graph
