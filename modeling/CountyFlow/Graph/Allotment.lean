import CountyFlow.Graph.Run

/-!
# A reassigned task

When capacity says `REASSIGNED`, the candidates in the state are those of the fleet, and the weight
that will be planned for is the first one's.
-/

namespace CountyFlow.Graph

open CountyFlow.Lib CountyFlow.Road CountyFlow.Dispatch

/-! ### The fleet -/

/-- What an eligible candidate is checked for. -/
structure VehicleCandidate.Suits (c : VehicleCandidate) (request : FleetAllocationRequest) : Prop where
  replaces : c.vehicleId ≠ request.originalVehicleId
  vehicleStatus : c.vehicleStatus = "AVAILABLE"
  driverStatus : c.driverStatus = some "ON_DUTY"
  noReasons : c.exclusionReasons = []
  capacity : request.cargoWeightKg ≤ c.remainingLoadKg
  capability : request.cargoType = "COLD_CHAIN" → c.cargoCapability = "COLD_CHAIN"

variable {vehicle : FleetVehicleSnapshot} {request : FleetAllocationRequest}

theorem cheapReasons_eq_nil (h : cheapReasons vehicle request = []) :
    vehicle.vehicleId ≠ request.originalVehicleId ∧ vehicle.status = "AVAILABLE" ∧
      vehicle.driver.map FleetDriverSnapshot.status = some "ON_DUTY" ∧
      request.cargoWeightKg ≤ vehicle.remainingLoadKg ∧
      (request.cargoType = "COLD_CHAIN" → vehicle.cargoCapability = "COLD_CHAIN") := by
  unfold cheapReasons at h
  obtain ⟨h, hcargo⟩ := List.append_eq_nil_iff.mp h
  obtain ⟨h, hcapacity⟩ := List.append_eq_nil_iff.mp h
  obtain ⟨h, hdriver⟩ := List.append_eq_nil_iff.mp h
  obtain ⟨horiginal, hstatus⟩ := List.append_eq_nil_iff.mp h
  refine ⟨?_, ?_, ?_, ?_, ?_⟩
  · intro hsame
    rw [if_pos hsame] at horiginal
    cases horiginal
  · by_contra hne
    rw [if_pos hne] at hstatus
    cases hstatus
  · split at hdriver
    · cases hdriver
    · rename_i driver hsome
      obtain ⟨hduty, -⟩ := List.append_eq_nil_iff.mp hdriver
      rw [hsome]
      by_contra hne
      rw [if_pos fun heq => hne (congrArg some heq)] at hduty
      cases hduty
  · by_contra hlt
    rw [if_pos (not_le.mp hlt)] at hcapacity
    cases hcapacity
  · intro hcold
    by_contra hne
    rw [if_pos ⟨hcold, hne⟩] at hcargo
    cases hcargo

variable {fuel : ℕ}

theorem evaluate_ok {network : RoadNetworkSnapshot} {c : VehicleCandidate}
    (h : vehicle.evaluate fuel network request = .ok c) :
    c.vehicleId = vehicle.vehicleId ∧ (c.eligible = true → c.Suits request) := by
  unfold FleetVehicleSnapshot.evaluate at h
  obtain ⟨pickup, -, h⟩ := bind_eq_ok.mp h
  split at h
  · obtain ⟨more, -, h⟩ := bind_eq_ok.mp h
    cases h
    exact ⟨rfl, fun heligible => by cases heligible⟩
  · obtain ⟨more, -, h⟩ := bind_eq_ok.mp h
    cases h
    refine ⟨rfl, fun heligible => ?_⟩
    have hnil : cheapReasons vehicle request ++ more = [] := List.isEmpty_iff.mp heligible
    obtain ⟨horiginal, hstatus, hdriver, hcapacity, hcargo⟩ :=
      cheapReasons_eq_nil (List.append_eq_nil_iff.mp hnil).1
    exact ⟨horiginal, hstatus, hdriver, hnil, hcapacity, hcargo⟩

theorem ranked_perm (candidates : List VehicleCandidate) : (ranked candidates).Perm candidates := by
  unfold ranked
  refine ((List.perm_insertionSort _ _).append (List.perm_insertionSort _ _)).trans ?_
  exact List.filter_append_perm (fun c : VehicleCandidate => c.eligible) candidates

theorem allocate_ok {v : FleetAllocationService} {snapshot : Option RoadNetworkSnapshot}
    {candidates : List VehicleCandidate} {selected : Option VehicleCandidate}
    (h : v.allocate fuel request snapshot = .ok (candidates, selected)) :
    (candidates.map VehicleCandidate.vehicleId).Nodup ∧
      (∀ c ∈ candidates, c.eligible = true → c.Suits request) ∧
      ∀ c, selected = some c → candidates.head? = some c ∧ c.eligible = true := by
  obtain ⟨evaluated, hevaluated, h⟩ := bind_eq_ok.mp h
  cases h
  have hall := forall₂_of_mapM hevaluated
  refine ⟨?_, fun c hc heligible => ?_, fun c hc => Option.filter_eq_some_iff.mp hc⟩
  · have hids : v.vehicles.map FleetVehicleSnapshot.vehicleId =
        evaluated.map VehicleCandidate.vehicleId := by
      rw [← List.forall₂_eq_eq_eq, List.forall₂_map_left_iff, List.forall₂_map_right_iff]
      exact hall.imp fun _ _ hok => (evaluate_ok hok).1.symm
    rw [((ranked_perm evaluated).map _).nodup_iff, ← hids]
    exact v.vehicleIds_nodup
  · obtain ⟨vehicle, -, hok⟩ := exists_of_forall₂ hall ((ranked_perm evaluated).mem_iff.mp hc)
    exact (evaluate_ok hok).2 heligible

/-! ### The capacity node -/

variable {service : Option CapacityService}

theorem assignedCapacity_ne {s : GraphState} {capacity : CapacityState}
    (h : s.assignedCapacity service = some capacity) : capacity.capacityStatus ≠ .reassigned := by
  have hassumed : s.assumedCapacity.capacityStatus ≠ .reassigned := by
    show (if decide (s.vehicleStatus.getD .normal = .normal) then CapacityStatus.available
      else .unavailable) ≠ .reassigned
    split
    · exact fun heq => by cases heq
    · exact fun heq => by cases heq
  unfold GraphState.assignedCapacity at h
  split at h
  · cases h
    exact hassumed
  · split at h
    · cases h
      exact hassumed
    · obtain ⟨snapshot, -, rfl⟩ := Option.map_eq_some_iff.mp h
      repeat' split
      all_goals exact fun heq => by cases heq

/-- A task whose vehicle has been replaced. -/
structure Allotted (s : GraphState) (candidates : List VehicleCandidate)
    (selected : VehicleCandidate) : Prop where
  states : s.candidateVehicles = candidates.map VehicleCandidate.toState
  nodup : (candidates.map VehicleCandidate.vehicleId).Nodup
  suits : ∀ c ∈ candidates, c.eligible = true → c.Suits s.allocationRequest
  head : candidates.head? = some selected
  eligible : selected.eligible = true
  weight : s.activeVehicleWeightTons = some selected.grossWeightTons
  selectedWeight : s.selectedVehicleGrossWeightTons = some selected.grossWeightTons

theorem capacity_reassigned {fleet : Option FleetAllocationService} {restores : Bool} {s s' : GraphState}
    (h : capacityNode service fleet restores fuel s = .ok s')
    (hstatus : s'.capacityStatus = some .reassigned) :
    ∃ candidates selected, Allotted s' candidates selected := by
  unfold capacityNode at h
  split at h
  · cases h
    cases hstatus
  · rename_i capacity hcapacity
    have hassigned : ∀ {t : GraphState}, t.capacityState = some capacity →
        t.capacityStatus ≠ some .reassigned := by
      intro t ht hreassigned
      rw [GraphState.capacityStatus, ht] at hreassigned
      exact assignedCapacity_ne hcapacity (Option.some.inj hreassigned)
    split at h
    · cases h
      exact absurd hstatus (hassigned rfl)
    · split at h
      · split at h
        · cases h
        · rename_i candidates selected hallocate
          cases h
          obtain ⟨hnodup, hsuits, hselected⟩ := allocate_ok hallocate
          obtain ⟨hhead, heligible⟩ := hselected selected rfl
          exact ⟨candidates, selected, ⟨rfl, hnodup, hsuits, hhead, heligible, rfl, rfl⟩⟩
        · cases h
          cases hstatus
      · cases h
        exact absurd hstatus (hassigned rfl)

theorem collected_reassigned {v : Services} {s s' : GraphState} (h : v.collected s = .ok s')
    (hstatus : s'.capacityStatus = some .reassigned) :
    ∃ candidates selected, Allotted s' candidates selected :=
  capacity_reassigned h hstatus

end CountyFlow.Graph
