import CountyFlow.Memory.Outcome

/-!
# What a mutation that is `APPLIED` has made of its fact

A command that writes makes its fact live; one that repeats the evidence and the metadata of the fact is
`APPLIED` without a write, whatever the status of the fact, and one whose key was used before is answered
from the stored mutation.
-/

namespace CountyFlow.Memory

open CountyFlow.Lib CallState

def Store.Live (s : Store) (c : MutationCommand) (factKey : String) : Prop :=
  ∃ fact ∈ s.facts.find factKey, fact.status = .active ∧
    fact.contentFingerprint = c.contentFingerprint ∧ fact.confidence = c.confidence.value ∧
    fact.expiresAt = c.expiresAt

instance (s : Store) (c : MutationCommand) (factKey : String) : Decidable (s.Live c factKey) := by
  unfold Store.Live
  infer_instance

/-- The columns of a fact keep the confidence and the `expires_at` of the command. -/
structure MutationCommand.Stored (c : MutationCommand) : Prop where
  confidence : numeric54 c.confidence.value = c.confidence.value
  expiresAt : c.expiresAt = none ∨ c.expiresShift = 0

theorem MutationCommand.stored_iff {c : MutationCommand} :
    c.Stored ↔ numeric54 c.confidence.value = c.confidence.value ∧
    (c.expiresAt = none ∨ c.expiresShift = 0) :=
  ⟨fun h => ⟨h.confidence, h.expiresAt⟩, fun h => ⟨h.1, h.2⟩⟩

instance (c : MutationCommand) : Decidable c.Stored := decidable_of_iff _ MutationCommand.stored_iff.symm

/-- The command repeats the content, the evidence and the metadata of the fact. -/
structure FactSnapshot.Repeats (fact : FactSnapshot) (c : MutationCommand) (now : ℤ) : Prop where
  unexpired : fact.isExpired now = false
  content : c.contentFingerprint = fact.contentFingerprint
  evidence : c.evidenceFingerprint ∈ fact.evidenceFingerprints
  confidence : c.confidence.value = fact.confidence
  expiresAt : c.expiresAt = fact.expiresAt

theorem FactSnapshot.repeats_iff {fact : FactSnapshot} {c : MutationCommand} {now : ℤ} :
    fact.Repeats c now ↔ fact.isExpired now = false ∧ c.contentFingerprint = fact.contentFingerprint ∧
      c.evidenceFingerprint ∈ fact.evidenceFingerprints ∧ c.confidence.value = fact.confidence ∧
      c.expiresAt = fact.expiresAt :=
  ⟨fun h => ⟨h.unexpired, h.content, h.evidence, h.confidence, h.expiresAt⟩,
    fun ⟨h₁, h₂, h₃, h₄, h₅⟩ => ⟨h₁, h₂, h₃, h₄, h₅⟩⟩

instance (fact : FactSnapshot) (c : MutationCommand) (now : ℤ) : Decidable (fact.Repeats c now) :=
  decidable_of_iff _ FactSnapshot.repeats_iff.symm

/-- **The condition**: a fact the command repeats is active already, and the columns keep the confidence and
the `expires_at` of a command that is not a repetition. -/
structure Store.Promotes (s : Store) (c : MutationCommand) (factKey : String) (now : ℤ) : Prop where
  repeated : ∀ fact ∈ s.loadFact factKey, fact.Repeats c now → fact.status = .active
  written : (∀ fact ∈ s.loadFact factKey, ¬ fact.Repeats c now) → c.Stored

/-! ### The decision -/

section Decision

variable {current : Option FactSnapshot} {factKey : String} {c : MutationCommand}
  {settings : MemoryPolicySettings} {now : ℤ} {d : MemoryDecision}

theorem evaluate_noop_iff (h : evaluateMutation current factKey c settings now = .ok d)
    (hgood : c.humanConfirmed = true ∨ settings.autoApplyMinConfidence ≤ c.confidence.value) :
    d.decision = .noop ↔ ∃ fact ∈ current, fact.Repeats c now := by
  have hlow : ¬ (c.confidence.value < settings.autoApplyMinConfidence ∧ ¬ c.humanConfirmed = true) := by
    rintro ⟨hlt, hno⟩
    rcases hgood with hyes | hle
    · exact hno hyes
    · exact absurd hlt (not_lt.mpr hle)
  unfold evaluateMutation at h
  rw [if_neg (not_not.mpr (expectedVersion_of_evaluate h)), if_neg hlow] at h
  cases current with
  | none =>
    cases h
    simp [makeDecision]
  | some fact =>
    have hmem : (∃ fact' ∈ some fact, fact'.Repeats c now) ↔ fact.Repeats c now := by simp
    rw [hmem, FactSnapshot.repeats_iff]
    simp only at h
    by_cases hexpired : fact.isExpired now = true
    · rw [if_pos hexpired] at h
      cases h
      simp [makeDecision, hexpired]
    · rw [if_neg hexpired] at h
      by_cases hcontent : c.contentFingerprint = fact.contentFingerprint
      · rw [if_pos hcontent] at h
        split at h
        · rename_i hsame
          cases h
          simp [makeDecision, hexpired, hcontent, hsame]
        · rename_i hsame
          cases h
          simpa [makeDecision, hexpired, hcontent] using hsame
      · rw [if_neg hcontent] at h
        -- what else a fact of another content is answered is no repetition
        have hother : d.decision ≠ .noop := by
          intro hnoop
          split at h
          · cases h
            cases hnoop
          split at h
          · cases h
            cases hnoop
          split at h
          · cases h
            cases hnoop
          · cases h
            cases hnoop
        simp [hcontent, hother]

theorem good_of_evaluate (h : evaluateMutation current factKey c settings now = .ok d)
    (hdecision : d.decision = .noop ∨ d.decision.writes = true) :
    c.humanConfirmed = true ∨ settings.autoApplyMinConfidence ≤ c.confidence.value := by
  by_contra hbad
  rw [not_or, not_le] at hbad
  unfold evaluateMutation at h
  rw [if_neg (not_not.mpr (expectedVersion_of_evaluate h)), if_pos ⟨hbad.2, hbad.1⟩] at h
  cases h
  rcases hdecision with hnoop | hwrites
  · cases hnoop
  · cases hwrites

end Decision

/-! ### The fact after the call -/

section Calls

variable {v : MutationService} {before s : Store} {c : MutationCommand} {mutationId : ℕ}
  {d : MemoryDecision} {now : ℤ}

variable {factKey : String}

theorem live_of_repeats {seen : FactSnapshot} (h : before.loadFact factKey = some seen)
    (hrepeats : seen.Repeats c now) : before.Live c factKey ↔ seen.status = .active := by
  obtain ⟨-, fact, hfact, hshows⟩ := Store.loadFact_shows h
  have hcontent : fact.contentFingerprint = c.contentFingerprint :=
    hshows.content.symm.trans hrepeats.content.symm
  have hconfidence : fact.confidence = c.confidence.value :=
    hshows.confidence.symm.trans hrepeats.confidence.symm
  have hexpires : fact.expiresAt = c.expiresAt := hshows.expiresAt.symm.trans hrepeats.expiresAt.symm
  rw [hshows.status]
  simp [Store.Live, hfact, hcontent, hconfidence, hexpires]

theorem live_of_written (h : s.Written c factKey) : s.Live c factKey ↔ c.Stored := by
  obtain ⟨version, i, t, hfact⟩ := h
  simp [Store.Live, hfact, Fact.ofCommand, MutationCommand.stored_iff, c.storedExpiresAt_eq_iff]

theorem Store.Keeps.live_iff (h : before.Keeps s factKey) : s.Live c factKey ↔ before.Live c factKey := by
  unfold Store.Live
  rw [h.facts]

theorem Outcome.live_iff (hd : Decided v before c mutationId d now) (h : Outcome before c (v.factKey c) d s) :
    s.Live c (v.factKey c) ↔ before.Promotes c (v.factKey c) now := by
  cases h with
  | kept hnoop hkeeps =>
    obtain ⟨seen, hseen, hrepeats⟩ :=
      (evaluate_noop_iff hd.evaluated (good_of_evaluate hd.evaluated (.inl hnoop))).mp hnoop
    rw [hkeeps.live_iff, live_of_repeats hseen hrepeats]
    constructor
    · intro hactive
      refine ⟨fun seen' hseen' _ => ?_, fun hnone => absurd hrepeats (hnone seen hseen)⟩
      rw [Option.mem_unique hseen' hseen]
      exact hactive
    · intro hpromotes
      exact hpromotes.repeated seen hseen hrepeats
  | wrote hwrites hwritten _ =>
    have hnone : ∀ seen ∈ before.loadFact (v.factKey c), ¬ seen.Repeats c now := by
      intro seen hseen hrepeats
      have hnoop := (evaluate_noop_iff hd.evaluated
        (good_of_evaluate hd.evaluated (.inr hwrites))).mpr ⟨seen, hseen, hrepeats⟩
      rw [hnoop] at hwrites
      cases hwrites
    rw [live_of_written hwritten]
    constructor
    · intro hkept
      exact ⟨fun seen hseen hrepeats => absurd hrepeats (hnone seen hseen), fun _ => hkept⟩
    · intro hpromotes
      exact hpromotes.written hnone

/-- **When a mutation that reports `APPLIED` has a live fact**, for every command, confirmed by a human or
not, and every store it finds. -/
theorem applied_live_iff {answers : List Answer} {factKey : String} {result : MutationResult}
    (hrun : exec (CallState.move v) (before, .beginning c (v.factKey c)) answers =
      some (s, .releasing factKey (.ok result)))
    (happlied : result.status = .applied) :
    s.Live c (v.factKey c) ↔
      if before.Replays c then before.Live c (v.factKey c)
      else ∀ now ∈ decidedAt answers, before.Promotes c (v.factKey c) now := by
  cases came_of_exec hrun with
  | looked _ hopen => exact absurd rfl (hopen factKey result)
  | replayed hreplays hsame =>
    rw [if_pos hreplays, hsame]
  | @decided mutationId d now hfresh hnow hd htracks _ =>
    rw [if_neg hfresh, (htracks happlied).live_iff hd]
    constructor
    · intro hpromotes now' hnow'
      rw [Option.mem_unique hnow' hnow]
      exact hpromotes
    · intro hpromotes
      exact hpromotes now hnow

end Calls

/-! ### Two calls -/

/-- The status a call returns. -/
def CallState.returned : CallState → Option MutationStatus
  | .releasing _ (.ok result) => some result.status
  | _ => none

theorem returned_eq_some {st : CallState} {status : MutationStatus} :
    st.returned = some status ↔
      ∃ factKey result, st = .releasing factKey (.ok result) ∧ result.status = status := by
  constructor
  · intro h
    cases st with
    | releasing factKey ending =>
      cases ending with
      | ok result => exact ⟨factKey, result, rfl, Option.some.inj h⟩
      | error e => cases h
    | _ => cases h
  · rintro ⟨factKey, result, rfl, rfl⟩
    rfl

/-- A call of `mutate` whose steps go through at time 0. -/
def mutates (c : MutationCommand) (n : ℕ) (s : Store) : Option (Store × CallState) :=
  exec (CallState.move exampleService) (s, .beginning c (exampleService.factKey c))
    (List.replicate n (.goes 0))

/-- A report that is not good enough to be applied. -/
def doubtfulReport : MutationCommand :=
  { exampleCommand "K-1" "open" none with
    confidence := ⟨5, 1⟩
    humanConfirmed := false
    confidence_le := by norm_num [Decimal.value] }

def confirmation : MutationCommand :=
  { doubtfulReport with
    idempotencyKey := "K-2"
    humanConfirmed := true
    expectedVersion := some 1 }

/-- A confirmed report of a new fact is applied, and its fact is live. -/
theorem applied_live_iff_created : ∃ s factKey result,
    mutates (exampleCommand "K-1" "open" none) 15 Store.empty =
      some (s, .releasing factKey (.ok result)) ∧
    result.status = .applied ∧ s.Live (exampleCommand "K-1" "open" none) "R-1" := by
  have hrun : (mutates (exampleCommand "K-1" "open" none) 15 Store.empty).map
      (fun x => x.2.returned) = some (some .applied) := by decide +kernel
  obtain ⟨⟨s, st⟩, hs, hreturned⟩ := Option.map_eq_some_iff.mp hrun
  obtain ⟨factKey, result, rfl, happlied⟩ := returned_eq_some.mp hreturned
  refine ⟨s, factKey, result, hs, happlied, (applied_live_iff hs happlied).mpr ?_⟩
  rw [if_neg (by decide)]
  intro now _
  have hloaded : Store.empty.loadFact (exampleService.factKey (exampleCommand "K-1" "open" none)) = none :=
    rfl
  refine ⟨fun seen hseen => ?_, fun _ => by decide +kernel⟩
  rw [hloaded] at hseen
  cases hseen

/-- The confirmation of a doubtful report is `APPLIED`, and the fact waits for a review as before. -/
theorem confirmed_not_live :
    ((mutates doubtfulReport 8 Store.empty).bind fun x => mutates confirmation 7 x.1).map
      (fun x => (x.2.returned, decide (x.1.Live confirmation "R-1"),
        (x.1.facts.find "R-1").map Fact.status)) =
    some (some .applied, false, some .pendingReview) := by
  decide +kernel

end CountyFlow.Memory
