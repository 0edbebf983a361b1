import CountyFlow.Evidence.Objects

/-!
# The fleet evidence, written and read back

The stored candidates are those of the state, and the stored selection is the reserved one of them; what
the reader merges into that candidate is what the candidate holds already.
-/

namespace CountyFlow.Evidence

open CountyFlow.Core

variable {vehicles : List VehicleCandidate}

/-- The candidate that a dispatch has reserved: none, or an eligible one of the list. -/
inductive Reserved (vehicles : List VehicleCandidate) : Value → Prop
  | nobody : Reserved vehicles .none
  | vehicle (c : VehicleCandidate) (driverId : String) (hmem : c ∈ vehicles)
      (heligible : c.eligible = true) (hvehicle : c.vehicleId ≠ "")
      (hdriver : c.driverId = some driverId) (hname : driverId ≠ "") :
      Reserved vehicles (candidateToState c)

def Named (vehicles : List VehicleCandidate) : Prop := ∀ c ∈ vehicles, c.vehicleId ≠ ""

variable {c : VehicleCandidate}

theorem text_vehicleId (h : c.vehicleId ≠ "") : text (candidateToState c) "vehicle_id" = .str c.vehicleId :=
  (nonEmptyText_str_eq c.vehicleId).mpr h

variable {candidate : Value}

theorem Reserved.text_eq (h : Reserved vehicles candidate) :
    text candidate "vehicle_id" = candidate.get "vehicle_id" ∧
      text candidate "driver_id" = candidate.get "driver_id" := by
  cases h with
  | nobody => exact ⟨rfl, rfl⟩
  | vehicle c driverId hmem heligible hvehicle hdriver hname =>
    refine ⟨text_vehicleId hvehicle, ?_⟩
    show nonEmptyText (ofText c.driverId) = ofText c.driverId
    rw [nonEmptyText_ofText_eq, hdriver]
    simpa using hname

theorem find_vehicle (hnodup : (vehicles.map VehicleCandidate.vehicleId).Nodup) (hc : c ∈ vehicles)
    {p : VehicleCandidate → Bool}
    (hp : ∀ v ∈ vehicles, p v = true ↔ v.vehicleId = c.vehicleId) : vehicles.find? p = some c := by
  induction vehicles with
  | nil => cases hc
  | cons v vehicles ih =>
    rw [List.map_cons, List.nodup_cons] at hnodup
    have hhead := hp v (List.mem_cons_self ..)
    rcases List.mem_cons.mp hc with rfl | hmem
    · rw [List.find?_cons_of_pos (hhead.mpr rfl)]
    · have hne : v.vehicleId ≠ c.vehicleId := by
        intro heq
        exact hnodup.1 (heq ▸ List.mem_map_of_mem hmem)
      rw [List.find?_cons_of_neg fun hv => hne (hhead.mp hv)]
      exact ih hnodup.2 hmem fun w hw => hp w (List.mem_cons_of_mem _ hw)

theorem Reserved.find (hnodup : (vehicles.map VehicleCandidate.vehicleId).Nodup) (hnamed : Named vehicles)
    (h : Reserved vehicles candidate) :
    ((vehicles.map candidateToState).find? fun v =>
      text v "vehicle_id" = text candidate "vehicle_id").getD .none = candidate := by
  rw [List.find?_map]
  cases h with
  | nobody =>
    have hnone : vehicles.find? ((fun v => decide (text v "vehicle_id" =
        text .none "vehicle_id")) ∘ candidateToState) = none := by
      rw [List.find?_eq_none]
      intro v hv
      simp only [Function.comp_apply, text_vehicleId (hnamed v hv)]
      simp [text]
    rw [hnone]
    rfl
  | vehicle c driverId hmem heligible hvehicle hdriver hname =>
    have hsome : vehicles.find? ((fun v => decide (text v "vehicle_id" =
        text (candidateToState c) "vehicle_id")) ∘ candidateToState) = some c := by
      apply find_vehicle hnodup hmem
      intro v hv
      simp only [Function.comp_apply, text_vehicleId (hnamed v hv), text_vehicleId hvehicle,
        Value.str.injEq, decide_eq_true_eq]
    rw [hsome]
    rfl

/-! ### The fleet row -/

theorem Reserved.fleetEntries (hnodup : (vehicles.map VehicleCandidate.vehicleId).Nodup)
    (hnamed : Named vehicles) (h : Reserved vehicles candidate) (original : Value) :
    fleetEntries (vehicles.map candidateToState) original (text candidate "vehicle_id") =
      [("original_vehicle_id", original),
        ("target_vehicle_id", text candidate "vehicle_id"),
        ("target_driver_id", text candidate "driver_id"),
        ("vehicle_reassigned", .bool (text candidate "vehicle_id" ≠ .none ∧
          text candidate "vehicle_id" ≠ original)),
        ("pickup_route", compactPath (candidate.get "pickup_route")),
        ("selected_candidate",
          if candidate = .none then .none else compactSelectedCandidate candidate),
        ("candidates", .list (vehicles.map fun c => compactVehicleCandidate (candidateToState c)))] := by
  have hfind := h.find hnodup hnamed
  simp only [Evidence.fleetEntries, hfind, List.map_map, Function.comp_def]

/-! ### One candidate -/

def candidateEntries (candidate : Value) : State :=
  selectedEntries candidate ++ [
    ("gross_weight_tons", numberText (candidate.get "gross_weight_tons")),
    ("pickup_route", compactPath (candidate.get "pickup_route")),
    ("pickup_distance_km", numberText (candidate.get "pickup_distance_km")),
    ("pickup_eta_minutes", integer (candidate.get "pickup_eta_minutes")),
    ("scoring_formula", text candidate "scoring_formula")]

/-- The entries that the reader checks for the target: its own, under those of the selection. -/
def mergedEntries (source selectedCandidate : State) (targetVehicleId targetDriverId : Value) :
    State :=
  ((source.update (selectedCandidate.filter fun entry =>
    entry.1 ∉ ["vehicle_id", "driver_id"])).set "vehicle_id" targetVehicleId).set
      "driver_id" targetDriverId

theorem readVehicleCandidate_dict (selectedCandidate : State) (targetVehicleId targetDriverId : Value)
    (source : State) :
    readVehicleCandidate selectedCandidate targetVehicleId targetDriverId (.dict source) =
      if source.get "vehicle_id" = targetVehicleId then
        if agrees source "driver_id" targetDriverId then
          readModel vehicleCandidateResponse vehicleCandidateKeys
            (.dict (mergedEntries source selectedCandidate targetVehicleId targetDriverId))
        else none
      else readModel vehicleCandidateResponse vehicleCandidateKeys (.dict source) := rfl

theorem merge_selected (candidate : Value) :
    mergedEntries (candidateEntries candidate) (selectedEntries candidate)
        (text candidate "vehicle_id") (text candidate "driver_id") = candidateEntries candidate := by
  simp [mergedEntries, candidateEntries, selectedEntries, State.update, State.set]

variable {targetVehicleId targetDriverId : Value} {selectedCandidate : State}

theorem readVehicleCandidate_eq
    (h : text candidate "vehicle_id" = targetVehicleId →
      selectedCandidate = selectedEntries candidate ∧ text candidate "driver_id" = targetDriverId) :
    readVehicleCandidate selectedCandidate targetVehicleId targetDriverId
        (compactVehicleCandidate candidate) =
      readModel vehicleCandidateResponse vehicleCandidateKeys (compactVehicleCandidate candidate) := by
  have hentries : compactVehicleCandidate candidate = .dict (candidateEntries candidate) :=
    compactVehicleCandidate_eq candidate
  have hvehicle : (candidateEntries candidate).get "vehicle_id" = text candidate "vehicle_id" := rfl
  have hdriver : (candidateEntries candidate).lookup "driver_id" =
      some (text candidate "driver_id") := rfl
  rw [hentries, readVehicleCandidate_dict, hvehicle]
  split
  next htarget =>
    obtain ⟨rfl, hagree⟩ := h htarget
    simp only [agrees, hdriver, hagree, decide_true, if_true]
    rw [← htarget, ← hagree, merge_selected]
  next => rfl

theorem text_of_readVehicleCandidate
    (h : (readVehicleCandidate selectedCandidate targetVehicleId targetDriverId
      (compactVehicleCandidate candidate)).isSome = true) : text candidate "vehicle_id" ≠ .none := by
  intro hnone
  have hrefused : ∀ {entries : State}, entries.lookup "vehicle_id" = some .none →
      ¬ (readModel vehicleCandidateResponse vehicleCandidateKeys (.dict entries)).isSome = true := by
    intro entries hlookup hread
    have hfield := isSome_field hread (List.mem_cons_self ..) (by decide) hlookup
    simp [required, Schema.validate] at hfield
  have hvehicle : (candidateEntries candidate).lookup "vehicle_id" = some .none := by
    rw [← hnone]
    rfl
  have hget : (candidateEntries candidate).get "vehicle_id" = .none := by
    rw [← hnone]
    rfl
  rw [show compactVehicleCandidate candidate = .dict (candidateEntries candidate) from
    compactVehicleCandidate_eq candidate] at h
  rw [readVehicleCandidate_dict] at h
  split at h
  next htarget =>
    rw [hget] at htarget
    split at h
    · refine hrefused ?_ h
      rw [mergedEntries, State.lookup_set, if_neg (by decide), State.lookup_set, if_pos rfl, htarget]
    · cases h
  next => exact hrefused hvehicle h

/-! ### All candidates -/

theorem mapM_congr {α β : Type} {f g : α → Option β} {items : List α}
    (h : ∀ item ∈ items, f item = g item) : items.mapM f = items.mapM g := by
  induction items with
  | nil => rfl
  | cons item items ih =>
    have hrest := ih fun other hother => h other (List.mem_cons_of_mem _ hother)
    rw [List.mapM_cons, List.mapM_cons, h item (List.mem_cons_self ..), hrest]

theorem mappingList_compact (vehicles : List VehicleCandidate) :
    mappingList (.list (vehicles.map fun c => compactVehicleCandidate (candidateToState c))) =
      some (vehicles.map fun c => compactVehicleCandidate (candidateToState c)) := by
  have hall : (vehicles.map fun c => compactVehicleCandidate (candidateToState c)).all
      Value.isDict = true := by
    rw [List.all_eq_true]
    intro value hvalue
    obtain ⟨c, -, rfl⟩ := List.mem_map.mp hvalue
    rfl
  rw [mappingList, if_pos hall]

theorem named_of_readVehicleCandidates {original : Value}
    (h : (readVehicleCandidates (fleetEntries (vehicles.map candidateToState) original targetVehicleId)
      targetVehicleId targetDriverId).isSome = true) : Named vehicles := by
  have hcandidates : (fleetEntries (vehicles.map candidateToState) original targetVehicleId).get
      "candidates" = .list (vehicles.map fun c => compactVehicleCandidate (candidateToState c)) := by
    simp [fleetEntries, State.get_cons, Function.comp_def]
  obtain ⟨output, houtput⟩ := Option.isSome_iff_exists.mp h
  simp only [readVehicleCandidates, hcandidates, mappingList_compact, Option.bind_eq_bind,
    Option.bind_eq_some_iff, Option.bind_some] at houtput
  obtain ⟨-, -, -, -, -, -, -, -, outs, houts, -⟩ := houtput
  have hall := (Schema.isSome_mapM _ _).mp (Option.isSome_iff_exists.mpr ⟨outs, houts⟩)
  intro c hc hempty
  have hread := hall _ (List.mem_map_of_mem hc)
  apply text_of_readVehicleCandidate hread
  show nonEmptyText (.str c.vehicleId) = .none
  rw [hempty]
  rfl

theorem Reserved.count (hnodup : (vehicles.map VehicleCandidate.vehicleId).Nodup) (hnamed : Named vehicles)
    (h : Reserved vehicles candidate) :
    text candidate "vehicle_id" = .none ∨
      (vehicles.map fun c => compactVehicleCandidate (candidateToState c)).countP (fun v =>
        v.get "vehicle_id" = text candidate "vehicle_id") = 1 := by
  cases h with
  | nobody => exact .inl rfl
  | vehicle c driverId hmem heligible hvehicle hdriver hname =>
    right
    rw [← List.count_eq_one_of_mem hnodup (List.mem_map_of_mem hmem), List.count,
      List.countP_map, List.countP_map]
    apply List.countP_congr
    intro v hv
    have hget : (compactVehicleCandidate (candidateToState v)).get "vehicle_id" =
        text (candidateToState v) "vehicle_id" := rfl
    simp only [Function.comp_apply, hget, text_vehicleId (hnamed v hv), text_vehicleId hvehicle,
      Value.str.injEq, decide_eq_true_eq, beq_iff_eq]

/-- What the reader merges into the reserved candidate. -/
def selection (candidate : Value) : State :=
  if candidate = .none then [] else selectedEntries candidate

theorem entriesOf_selection (candidate : Value) :
    entriesOf (if candidate = .none then .none else compactSelectedCandidate candidate) =
      selection candidate := by
  unfold selection
  split <;> rfl

theorem agrees_selection (h : Reserved vehicles candidate) :
    agrees (selection candidate) "vehicle_id" (text candidate "vehicle_id") = true ∧
      agrees (selection candidate) "driver_id" (text candidate "driver_id") = true := by
  cases h with
  | nobody => exact ⟨rfl, rfl⟩
  | vehicle c driverId hmem heligible hvehicle hdriver hname =>
    have hselection : selection (candidateToState c) = selectedEntries (candidateToState c) :=
      if_neg nofun
    rw [hselection]
    simp [agrees, selectedEntries, List.lookup_cons]

theorem Reserved.readVehicleCandidate_eq (hnodup : (vehicles.map VehicleCandidate.vehicleId).Nodup)
    (hnamed : Named vehicles) (h : Reserved vehicles candidate) (hc : c ∈ vehicles) :
    readVehicleCandidate (selection candidate) (text candidate "vehicle_id")
        (text candidate "driver_id") (compactVehicleCandidate (candidateToState c)) =
      readModel vehicleCandidateResponse vehicleCandidateKeys
        (compactVehicleCandidate (candidateToState c)) := by
  apply Evidence.readVehicleCandidate_eq
  intro htarget
  rw [text_vehicleId (hnamed c hc)] at htarget
  cases h with
  | nobody => cases htarget
  | vehicle d driverId hmem heligible hvehicle hdriver hname =>
    rw [text_vehicleId hvehicle, Value.str.injEq] at htarget
    have hsame : c = d := List.inj_on_of_nodup_map hnodup hc hmem htarget
    rw [hsame]
    exact ⟨if_neg nofun, rfl⟩

theorem readVehicleCandidates_eq (hnodup : (vehicles.map VehicleCandidate.vehicleId).Nodup)
    (hnamed : Named vehicles) (h : Reserved vehicles candidate) (original : Value) :
    readVehicleCandidates
        (fleetEntries (vehicles.map candidateToState) original (text candidate "vehicle_id"))
        (text candidate "vehicle_id") (text candidate "driver_id") =
      (vehicles.map fun c => compactVehicleCandidate (candidateToState c)).mapM
        (readModel vehicleCandidateResponse vehicleCandidateKeys) := by
  have hcount := h.count hnodup hnamed
  obtain ⟨hvehicle, hdriver⟩ := agrees_selection h
  have hmap : (vehicles.map fun c => compactVehicleCandidate (candidateToState c)).mapM
      (readVehicleCandidate (selection candidate) (text candidate "vehicle_id")
        (text candidate "driver_id")) =
      (vehicles.map fun c => compactVehicleCandidate (candidateToState c)).mapM
        (readModel vehicleCandidateResponse vehicleCandidateKeys) := by
    apply mapM_congr
    intro value hvalue
    obtain ⟨c, hc, rfl⟩ := List.mem_map.mp hvalue
    exact h.readVehicleCandidate_eq hnodup hnamed hc
  have hentries := h.fleetEntries hnodup hnamed original
  generalize fleetEntries (vehicles.map candidateToState) original (text candidate "vehicle_id") =
    entries at hentries ⊢
  have hselected : entriesOf (entries.get "selected_candidate") = selection candidate := by
    rw [hentries]
    exact entriesOf_selection candidate
  have hcandidates : entries.get "candidates" =
      .list (vehicles.map fun c => compactVehicleCandidate (candidateToState c)) := by
    rw [hentries]
    rfl
  have htarget : agrees entries "target_vehicle_id" (text candidate "vehicle_id") = true := by
    rw [hentries]
    simp [agrees, List.lookup_cons]
  have htargetDriver : agrees entries "target_driver_id" (text candidate "driver_id") = true := by
    rw [hentries]
    simp [agrees, List.lookup_cons]
  simp only [readVehicleCandidates, hselected, hcandidates, htarget, htargetDriver, hvehicle, hdriver,
    mappingList_compact, hmap, hcount, guard, if_true, Option.pure_def, Option.bind_eq_bind,
    Option.bind_some]
  exact Option.bind_fun_some _

end CountyFlow.Evidence
