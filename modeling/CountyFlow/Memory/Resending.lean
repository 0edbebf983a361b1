import CountyFlow.Memory.Confirmation

/-!
# Evidence that is sent again

A command that has been applied comes again under other idempotency keys, with the version the fact then
has, any number of times; in between other facts may change.  Each of them is compared with the fact as the
database gives it back, whose confidence has four decimals and whose `expires_at` is what the column keeps.
-/

namespace CountyFlow.Memory

open CountyFlow.Lib CallState

/-- The same command under another key, for the version the fact has. -/
def MutationCommand.resent (c : MutationCommand) (idempotencyKey : String) (version : ℕ) :
    MutationCommand :=
  { c with
    idempotencyKey := idempotencyKey
    expectedVersion := some version }

/-- The time at which the fact expires is not reached. -/
def MutationCommand.Lasts (c : MutationCommand) (now : ℤ) : Prop := ∀ t ∈ c.storedExpiresAt, now < t

/-- `mutate` has applied the command through a projection path. -/
def Store.Applies (v : MutationService) (before : Store) (c : MutationCommand) (s : Store) : Prop :=
  ∃ answers factKey result,
    exec (CallState.move v) (before, .beginning c (v.factKey c)) answers =
      some (s, .releasing factKey (.ok result)) ∧ result.status = .applied ∧ ¬ before.Replays c ∧
    ∃ now ∈ decidedAt answers, ∃ d,
      evaluateMutation (before.loadFact (v.factKey c)) (v.factKey c) c v.policySettings now = .ok d ∧
        d.requiresProjection = true

/-- **The stores that follow**: the command is sent again while the fact lasts, with the version the fact
has, and its call may end in any way or be cut off; or something changes elsewhere. -/
inductive Store.Resent (v : MutationService) (c : MutationCommand) (s : Store) : Store → Prop
  | refl : Resent v c s s
  | send {s₁ s₂ : Store} {seen : FactSnapshot} {idempotencyKey : String} {answers : List Answer}
      {st : CallState} : Resent v c s s₁ → s₁.loadFact (v.factKey c) = some seen →
      (∀ now, .goes now ∈ answers → c.Lasts now) →
      exec (CallState.move v)
        (s₁, .beginning (c.resent idempotencyKey seen.version) (v.factKey c)) answers = some (s₂, st) →
      Resent v c s s₂
  | elsewhere {s₁ s₂ : Store} : Resent v c s s₁ →
      s₂.loadFact (v.factKey c) = s₁.loadFact (v.factKey c) → Resent v c s s₂

/-- **The evidence is absorbed**: whenever it is sent again the policy decides that nothing changes, and the
fact still has the version it had. -/
def Store.Absorbs (v : MutationService) (c : MutationCommand) (s : Store) : Prop :=
  ∀ s₁, s.Resent v c s₁ → ∃ seen, s₁.loadFact (v.factKey c) = some seen ∧
    (s.loadFact (v.factKey c)).map FactSnapshot.version = some seen.version ∧
    ∀ idempotencyKey now, c.Lasts now → ∃ d,
      evaluateMutation (some seen) (v.factKey c) (c.resent idempotencyKey seen.version)
        v.policySettings now = .ok d ∧ d.decision = .noop

/-- **What the fact is loaded as** after its command has been applied. -/
structure FactSnapshot.Holds (seen : FactSnapshot) (c : MutationCommand) : Prop where
  content : seen.contentFingerprint = c.contentFingerprint
  confidence : seen.confidence = numeric54 c.confidence.value
  status : seen.status = .active
  expiresAt : seen.expiresAt = c.storedExpiresAt
  evidence : c.evidenceFingerprint ∈ seen.evidenceFingerprints

section Resending

variable {v : MutationService} {before s s' : Store} {c : MutationCommand} {seen : FactSnapshot}

theorem holds_of_written {factKey : String} (hwritten : s.Written c factKey)
    (hsupported : s.Supported c factKey) : ∃ seen, s.loadFact factKey = some seen ∧ seen.Holds c := by
  obtain ⟨version, mutationId, now, hfact⟩ := hwritten
  obtain ⟨e, he, hfingerprint⟩ := hsupported
  refine ⟨_, by rw [Store.loadFact, hfact]; rfl, rfl, rfl, rfl, rfl, ?_⟩
  exact List.mem_map.mpr ⟨e, he, hfingerprint⟩

theorem Store.Applies.holds (href : before.Referenced) (h : before.Applies v c s) :
    (c.humanConfirmed = true ∨ v.policySettings.autoApplyMinConfidence ≤ c.confidence.value) ∧
      ∃ seen, s.loadFact (v.factKey c) = some seen ∧ seen.Holds c := by
  obtain ⟨answers, factKey, result, hrun, happlied, hnew, now, hnow, d, hd, hprojects⟩ := h
  cases came_of_exec hrun with
  | looked _ hopen => exact absurd rfl (hopen factKey result)
  | replayed hreplays _ => exact absurd hreplays hnew
  | @decided mutationId d' now' _ hnow' hd' htracks _ =>
    obtain rfl : now' = now := Option.mem_unique hnow' hnow
    obtain rfl : d' = d := Except.ok.inj (hd'.evaluated.symm.trans hd)
    cases htracks happlied with
    | kept hnoop _ =>
      rcases evaluateMutation_cases hd with ⟨hwrites, -⟩ | ⟨-, hno⟩
      · rw [hnoop] at hwrites
        cases hwrites
      · rw [hno] at hprojects
        cases hprojects
    | wrote hwrites hwritten hsupported =>
      exact ⟨good_of_evaluate hd (.inr hwrites), holds_of_written hwritten (hsupported href)⟩

theorem FactSnapshot.Holds.repeats_iff (h : seen.Holds c) {now : ℤ} (hlasts : c.Lasts now)
    (idempotencyKey : String) (version : ℕ) :
    seen.Repeats (c.resent idempotencyKey version) now ↔ c.Stored := by
  constructor
  · intro hrepeats
    refine ⟨?_, c.storedExpiresAt_eq_iff.mp ?_⟩
    · rw [← h.confidence]
      exact hrepeats.confidence.symm
    · rw [← h.expiresAt]
      exact hrepeats.expiresAt.symm
  · intro hkept
    refine ⟨?_, h.content.symm, h.evidence, (h.confidence.trans hkept.confidence).symm, ?_⟩
    rotate_left
    · exact (h.expiresAt.trans (c.storedExpiresAt_eq_iff.mpr hkept.expiresAt)).symm
    have hunexpired : ∀ t, c.storedExpiresAt = some t → now < t := hlasts
    simpa [FactSnapshot.isExpired, h.status, h.expiresAt] using hunexpired

theorem evaluate_resent (hgood : c.humanConfirmed = true ∨
      v.policySettings.autoApplyMinConfidence ≤ c.confidence.value)
    (h : seen.Holds c) {now : ℤ} (hlasts : c.Lasts now) (idempotencyKey : String) :
    ∃ d, evaluateMutation (some seen) (v.factKey c) (c.resent idempotencyKey seen.version)
        v.policySettings now = .ok d ∧
      (d.decision = .noop ↔ c.Stored) := by
  have hversion : (c.resent idempotencyKey seen.version).expectedVersion =
      (some seen).map FactSnapshot.version := rfl
  obtain ⟨d, hd⟩ := evaluate_of_expectedVersion hversion (v.factKey c) v.policySettings now
  refine ⟨d, hd, ?_⟩
  rw [evaluate_noop_iff hd hgood, ← h.repeats_iff hlasts idempotencyKey seen.version]
  simp

theorem resend_keeps {s₁ s₂ : Store} {idempotencyKey : String} {answers : List Answer} {st : CallState}
    (hgood : c.humanConfirmed = true ∨ v.policySettings.autoApplyMinConfidence ≤ c.confidence.value)
    (hkept : c.Stored) (hseen : s₁.loadFact (v.factKey c) = some seen) (h : seen.Holds c)
    (hlasts : ∀ now, .goes now ∈ answers → c.Lasts now)
    (hrun : exec (CallState.move v)
      (s₁, .beginning (c.resent idempotencyKey seen.version) (v.factKey c)) answers = some (s₂, st)) :
    s₂.loadFact (v.factKey c) = some seen := by
  rw [← hseen]
  cases came_of_exec (c := c.resent idempotencyKey seen.version) hrun with
  | looked hkeeps _ => exact hkeeps.loadFact
  | replayed _ hsame => rw [hsame]
  | @decided mutationId d now _ hnow hd _ hkeeps =>
    have hanswer : .goes now ∈ answers := mem_of_decidedAt hnow
    obtain ⟨d', hd', hnoop⟩ := evaluate_resent hgood h (hlasts now hanswer) idempotencyKey
    have hevaluated : evaluateMutation (s₁.loadFact (v.factKey c)) (v.factKey c)
        (c.resent idempotencyKey seen.version) v.policySettings now = .ok d := hd.evaluated
    rw [hseen] at hevaluated
    obtain rfl := Except.ok.inj (hd'.symm.trans hevaluated)
    exact (hkeeps (hnoop.mpr hkept)).loadFact

theorem resent_keeps {s₁ : Store}
    (hgood : c.humanConfirmed = true ∨ v.policySettings.autoApplyMinConfidence ≤ c.confidence.value)
    (hkept : c.Stored) (hseen : s.loadFact (v.factKey c) = some seen) (h : seen.Holds c)
    (hrun : s.Resent v c s₁) : s₁.loadFact (v.factKey c) = some seen := by
  induction hrun with
  | refl => exact hseen
  | send _ hloaded hlasts hcall ih =>
    obtain rfl := Option.some.inj (ih.symm.trans hloaded)
    exact resend_keeps hgood hkept ih h hlasts hcall
  | elsewhere _ hsame ih => exact hsame.trans ih

theorem exists_lasts (c : MutationCommand) : ∃ now, c.Lasts now := by
  cases hexpires : c.storedExpiresAt with
  | none =>
    refine ⟨0, fun t ht => ?_⟩
    rw [hexpires] at ht
    cases ht
  | some t =>
    refine ⟨t - 1, fun t' ht => ?_⟩
    rw [hexpires] at ht
    cases ht
    omega

/-- **Evidence that is sent again is absorbed exactly when the columns keep its confidence and its
`expires_at`.** -/
theorem absorbed_iff (href : before.Referenced) (happlies : before.Applies v c s) :
    s.Absorbs v c ↔ c.Stored := by
  obtain ⟨hgood, seen, hseen, hholds⟩ := happlies.holds href
  constructor
  · intro habsorbs
    obtain ⟨now, hlasts⟩ := exists_lasts c
    obtain ⟨seen', hseen', -, hdecides⟩ := habsorbs s .refl
    obtain rfl := Option.some.inj (hseen.symm.trans hseen')
    obtain ⟨d, hd, hnoop⟩ := hdecides "" now hlasts
    obtain ⟨d', hd', hiff⟩ := evaluate_resent hgood hholds hlasts ""
    obtain rfl := Except.ok.inj (hd.symm.trans hd')
    exact hiff.mp hnoop
  · intro hkept s₁ hrun
    refine ⟨seen, resent_keeps hgood hkept hseen hholds hrun, by rw [hseen]; rfl, ?_⟩
    intro idempotencyKey now hlasts
    obtain ⟨d, hd, hnoop⟩ := evaluate_resent hgood hholds hlasts idempotencyKey
    exact ⟨d, hd, hnoop.mpr hkept⟩

end Resending

/-! ### Two confidences -/

/-- A report whose confidence has four decimals at most is absorbed. -/
theorem absorbed_iff_coarse : ∃ s,
    Store.empty.Applies exampleService (exampleCommand "K-1" "open" none) s ∧
      s.Absorbs exampleService (exampleCommand "K-1" "open" none) := by
  have hrun : (mutates (exampleCommand "K-1" "open" none) 15 Store.empty).map
      (fun x => x.2.returned) = some (some .applied) := by decide +kernel
  obtain ⟨⟨s, st⟩, hs, hreturned⟩ := Option.map_eq_some_iff.mp hrun
  obtain ⟨factKey, result, rfl, happlied⟩ := returned_eq_some.mp hreturned
  have hdecided : evaluateMutation none "R-1" (exampleCommand "K-1" "open" none)
      exampleService.policySettings 0 = .ok (makeDecision .create "NEW_FACT" none .active true true) := by
    decide +kernel
  have happlies : Store.empty.Applies exampleService (exampleCommand "K-1" "open" none) s :=
    ⟨_, factKey, result, hs, happlied, by decide, 0, rfl, _, hdecided, rfl⟩
  have hreferenced : Store.empty.Referenced := by
    intro e he
    cases he
  exact ⟨s, happlies, (absorbed_iff hreferenced happlies).mpr (by decide +kernel)⟩

/-- A report whose confidence has five decimals. -/
def fineReport : MutationCommand :=
  { exampleCommand "K-1" "open" none with
    confidence := ⟨85555, 5⟩
    confidence_le := by norm_num [Decimal.value] }

/-- It is merged into its own fact each time it is sent again. -/
theorem resent_not_absorbed :
    (((mutates fineReport 15 Store.empty).bind fun x =>
        mutates (fineReport.resent "K-2" 1) 15 x.1).bind fun x =>
          mutates (fineReport.resent "K-3" 2) 15 x.1).map
      (fun x => (x.2.returned, x.1.mutations.rows.map Mutation.decision,
        (x.1.facts.find "R-1").map Fact.version)) =
    some (some .applied, [some .create, some .merge, some .merge], some 3) := by
  decide +kernel

end CountyFlow.Memory
