import CountyFlow.Breaker.System

/-!
# The permit of the probe

A half-open breaker refuses every request while its probe is in flight, and hears of the end of a
call only after a result or a `ProviderError`.  A call that ends in another way keeps the permit.
-/

namespace CountyFlow.Breaker

open CountyFlow.Lib

variable {p q : ℕ} {b : CircuitBreaker} {ending : Ending} {s' : System} {a : Action} {run : List Action}

namespace System

/-- The breaker is half-open with its probe in flight. -/
def Refusing (s : System) : Prop :=
  s.breaker.state = .halfOpen ∧ s.breaker.halfOpenProbeInFlight = true

instance (s : System) : Decidable s.Refusing := inferInstanceAs (Decidable (_ ∧ _))

/-- **The permit is with somebody**: while it is out, a call that was admitted has not ended. -/
def Permit (s : System) : Prop := s.Refusing → ∃ p, s.InFlight p

/-- From some time on the breaker lets a request through. -/
def Reopens (b : CircuitBreaker) : Prop := ∃ t, ∀ clock, t ≤ clock → (b.allowRequest clock).1 = true

/-- **The breaker does not refuse for ever**: it lets a request through from some time on, or does so
after a call that is under way, however the breaker hears of its end. -/
def Recovers (s : System) : Prop :=
  Reopens s.breaker ∨
    ∃ p, s.InFlight p ∧ ∀ ending, ending ≠ .abandoned → Reopens (s.breaker.hears ending)

/-- **The condition**: a call that ends without the breaker hearing of it, while the probe is in flight,
is not the last one under way. -/
def KeepsPermit (s : System) (a : Action) : Prop :=
  ∀ p, a.ending = some (p, .abandoned) → s.Refusing → ∃ q, q ≠ p ∧ s.InFlight q

/-! ### One step -/

variable {s : System}

theorem inFlight_update {st : CallState} (hne : q ≠ p) :
    InFlight ⟨b, Function.update s.calls p st⟩ q ↔ s.InFlight q := by
  simp only [InFlight, admission_update, hne, if_false]

theorem not_inFlight_of_finished {result : Except Raised Answer} :
    ¬ InFlight ⟨b, Function.update s.calls p (.finished result)⟩ p := by
  simp [InFlight]

theorem ne_of_idle (hidle : s.calls p = .idle) (hq : s.InFlight q) : q ≠ p := by
  intro h
  subst h
  exact hq (by rw [hidle]; rfl)

theorem hears_state (hheard : ending ≠ .abandoned) : (b.hears ending).state ≠ .halfOpen := by
  cases ending with
  | succeeded => simp [CircuitBreaker.hears]
  | abandoned => exact absurd rfl hheard
  | failed clock =>
    show (b.recordFailure clock).state ≠ .halfOpen
    by_cases hhalf : b.state = .halfOpen
    · obtain ⟨count, h⟩ : ∃ count, b.recordFailure clock = ({ b with failureCount := count }).opens clock :=
        CircuitBreaker.recordFailure_open (.inl hhalf)
      simp [h]
    · by_cases hthreshold : b.failureThreshold ≤ b.failureCount + 1
      · obtain ⟨count, h⟩ : ∃ count, b.recordFailure clock = ({ b with failureCount := count }).opens clock :=
          CircuitBreaker.recordFailure_open (.inr hthreshold)
        simp [h]
      · simp [CircuitBreaker.recordFailure_counted hhalf hthreshold, hhalf]

/-- The permit stays with somebody exactly if the step keeps it. -/
theorem step_permit (hpermit : s.Permit) (h : step s a = some s') : KeepsPermit s a ↔ s'.Permit := by
  have hvacuous (hnone : a.ending = none) : KeepsPermit s a := by
    intro p ha
    rw [hnone] at ha
    cases ha
  cases step_moves h with
  | @answered p result hnone hidle =>
    refine ⟨fun _ hrefusing => ?_, fun _ => hvacuous hnone⟩
    obtain ⟨q, hq⟩ := hpermit hrefusing
    exact ⟨q, (inFlight_update (ne_of_idle hidle hq)).mpr hq⟩
  | @admitted p st hnone _ _ hadmission =>
    refine ⟨fun _ _ => ⟨p, ?_⟩, fun _ => hvacuous hnone⟩
    simp [InFlight, hadmission]
  | @probed p st clock hnone _ _ hadmission =>
    refine ⟨fun _ _ => ⟨p, ?_⟩, fun _ => hvacuous hnone⟩
    simp [InFlight, hadmission]
  | @ended p ending admission result hending hcall =>
    by_cases hheard : ending = .abandoned
    · subst hheard
      -- nothing has been recorded: the permit is out as before, and `p` no longer counts
      constructor
      · intro hkeeps hrefusing
        obtain ⟨q, hne, hq⟩ := hkeeps p hending hrefusing
        exact ⟨q, (inFlight_update hne).mpr hq⟩
      · intro hpermit' p' ha hrefusing
        rw [hending] at ha
        obtain ⟨rfl, -⟩ := Prod.mk.inj (Option.some.inj ha)
        obtain ⟨q, hq⟩ := hpermit' hrefusing
        have hne : q ≠ p := by
          intro h
          subst h
          exact not_inFlight_of_finished hq
        exact ⟨q, hne, (inFlight_update hne).mp hq⟩
    · constructor
      · intro _ hrefusing
        exact absurd hrefusing.1 (hears_state hheard)
      · intro _ p' ha
        rw [hending] at ha
        exact absurd (Prod.mk.inj (Option.some.inj ha)).2 hheard

theorem meets_of_no_abandoned (h : ∀ a ∈ run, ∀ e ∈ a.ending, e.2 ≠ .abandoned) :
    Meets step KeepsPermit s run := by
  induction run generalizing s with
  | nil => trivial
  | cons a run ih =>
    have hrest : ∀ b ∈ run, ∀ e ∈ b.ending, e.2 ≠ .abandoned := by
      intro b hb
      exact h b (List.mem_cons_of_mem a hb)
    refine ⟨fun p ha => ?_, fun s' _ => ih hrest⟩
    exact absurd rfl (h a List.mem_cons_self (p, .abandoned) ha)

/-! ### A permit that is held, and one that is lost -/

theorem reopens_of_not_halfOpen (hopened : b.openedAt.isSome = true ↔ b.state ≠ .closed)
    (hhalf : b.state ≠ .halfOpen) : Reopens b := by
  cases hstate : b.state with
  | closed => exact ⟨0, fun clock _ => by simp [CircuitBreaker.allowRequest, hstate]⟩
  | halfOpen => exact absurd hstate hhalf
  | «open» =>
    have hsome : b.openedAt.isSome = true := hopened.mpr (by simp [hstate])
    obtain ⟨t, ht⟩ := Option.isSome_iff_exists.mp hsome
    refine ⟨t + b.recoverySeconds, fun clock hclock => ?_⟩
    have hrecovered : b.recovered clock = true := (CircuitBreaker.recovered_iff ht).mpr hclock
    simp [CircuitBreaker.allowRequest, hstate, hrecovered]

theorem reopens_of_hears (hs : s.Sound) (hheard : ending ≠ .abandoned) :
    Reopens (s.breaker.hears ending) := by
  apply reopens_of_not_halfOpen _ (hears_state hheard)
  cases ending with
  | succeeded => simp [CircuitBreaker.hears, CircuitBreaker.recordSuccess]
  | abandoned => exact absurd rfl hheard
  | failed clock => exact (recordFailure_sound hs clock s.calls).opened

theorem recovers_of_permit (hs : s.Sound) (hpermit : s.Permit) : s.Recovers := by
  by_cases hhalf : s.breaker.state = .halfOpen
  · obtain ⟨p, hp⟩ := hpermit ⟨hhalf, hs.probe.mpr hhalf⟩
    exact .inr ⟨p, hp, fun ending hheard => reopens_of_hears hs hheard⟩
  · exact .inl (reopens_of_not_halfOpen hs.opened hhalf)

/-- The permit is out and nobody holds it. -/
def Lost (s : System) : Prop := s.Refusing ∧ ∀ p, ¬ s.InFlight p

theorem lost_of_not_permit (h : ¬ s.Permit) : s.Lost := by
  simpa [Permit, Lost] using h

/-- A lost permit stays lost. -/
theorem step_lost (hs : s.Lost) (h : step s a = some s') : s'.Lost := by
  obtain ⟨hrefusing, hnobody⟩ := hs
  cases step_moves h with
  | @answered p result _ _ =>
    refine ⟨hrefusing, fun q hq => ?_⟩
    by_cases hqp : q = p
    · subst hqp
      exact not_inFlight_of_finished hq
    · exact hnobody q ((inFlight_update hqp).mp hq)
  | admitted _ _ hclosed _ =>
    rw [hrefusing.1] at hclosed
    cases hclosed
  | probed _ _ hstate _ =>
    rcases hstate with ⟨hopen, -⟩ | ⟨-, hfree⟩
    · rw [hrefusing.1] at hopen
      cases hopen
    · rw [hrefusing.2] at hfree
      cases hfree
  | @ended p ending admission result _ hcall =>
    exact absurd (by simp [InFlight, hcall]) (hnobody p)

theorem refuses_forever (hs : s.Lost) (hrun : exec step s run = some s')
    (clock : ℚ) : (s'.breaker.allowRequest clock).1 = false := by
  have hlost : s'.Lost := exec_preserves (fun _ _ _ hs h => step_lost hs h) hrun hs
  simp [CircuitBreaker.allowRequest, hlost.1.1, hlost.1.2]

theorem initial_permit (failureThreshold : ℤ) (recoverySeconds : ℚ) :
    (initial failureThreshold recoverySeconds).Permit := by
  intro hrefusing
  cases hrefusing.1

/-- **The permit is kept exactly by the runs that abandon no last call while it is out**; while it is kept
the breaker recovers, and once it is lost every later request is refused. -/
theorem permit_iff {failureThreshold : ℤ} {recoverySeconds : ℚ} {s : System} {run : List Action}
    (hrun : exec step (initial failureThreshold recoverySeconds) run = some s) :
    (Meets step KeepsPermit (initial failureThreshold recoverySeconds) run ↔
      ∀ pre m, pre <+: run → exec step (initial failureThreshold recoverySeconds) pre = some m →
        m.Permit ∧ m.Recovers) ∧
    (¬ s.Permit → ∀ later t, exec step s later = some t →
      ∀ clock, (t.breaker.allowRequest clock).1 = false) := by
  refine ⟨?_, fun hlost later t hlater clock => refuses_forever (lost_of_not_permit hlost) hlater clock⟩
  apply meets_iff_throughout (I := Sound) (fun _ _ _ hs h => step_sound hs h) _ hrun
    (initial_sound _ _) ⟨initial_permit _ _, recovers_of_permit (initial_sound _ _) (initial_permit _ _)⟩
  intro s a s' hs hP h
  rw [step_permit hP.1 h]
  exact ⟨fun hpermit => ⟨hpermit, recovers_of_permit (step_sound hs h) hpermit⟩, fun h => h.1⟩

/-! ### A probe that is cancelled -/

/-- A call fails and opens the breaker; the probe is cancelled while its provider is asked. -/
def cancelledProbe : List Action :=
  [.getEnvironment 0 "R001" 0, .environmentEnds 0 (.providerError true) 0,
    .getEnvironment 1 "R001" 5, .environmentEnds 1 .cancelled 6]

/-- **The permit can be lost**: after this run the breaker is half-open with its probe in flight, nobody
is under way, and every request is refused from then on. -/
theorem permit_can_be_lost : ∃ s, exec step (initial 1 5) cancelledProbe = some s ∧ s.Refusing ∧
    (∀ p, ¬ s.InFlight p) ∧ ∀ later t, exec step s later = some t →
      ∀ clock, (t.breaker.allowRequest clock).1 = false := by
  have hmap : (exec step (initial 1 5) cancelledProbe).map
      (fun s => (s.breaker.state, s.breaker.halfOpenProbeInFlight, (s.calls 0).admission,
        (s.calls 1).admission)) = some (.halfOpen, true, none, none) := by decide +kernel
  obtain ⟨s, hrun, hs⟩ := Option.map_eq_some_iff.mp hmap
  simp only [Prod.mk.injEq] at hs
  obtain ⟨hhalf, hprobe, hzero, hone⟩ := hs
  have hnobody (p : ℕ) : ¬ s.InFlight p := by
    by_cases hp : p = 0 ∨ p = 1
    · rcases hp with rfl | rfl
      · simpa [InFlight] using hzero
      · simpa [InFlight] using hone
    · have hother : s.calls p = .idle := by
        apply exec_calls hrun
        intro a ha
        simp only [cancelledProbe, List.mem_cons, List.not_mem_nil, or_false] at ha
        rcases ha with rfl | rfl | rfl | rfl <;> simp [Action.caller] <;> omega
      simp [InFlight, hother]
  exact ⟨s, hrun, ⟨hhalf, hprobe⟩, hnobody, fun later t hlater clock =>
    refuses_forever ⟨⟨hhalf, hprobe⟩, hnobody⟩ hlater clock⟩

def finishedProbe : List Action :=
  [.getEnvironment 0 "R001" 0, .environmentEnds 0 (.providerError true) 0,
    .getEnvironment 1 "R001" 5, .environmentEnds 1 (.returned (getFallback "R001" "")) 6]

theorem permit_iff_finishedProbe : ∃ s, exec step (initial 1 5) finishedProbe = some s ∧
    ∀ pre m, pre <+: finishedProbe → exec step (initial 1 5) pre = some m → m.Permit ∧ m.Recovers := by
  have hsome : (exec step (initial 1 5) finishedProbe).isSome = true := by decide +kernel
  obtain ⟨s, hrun⟩ := Option.isSome_iff_exists.mp hsome
  have hmeets : Meets step KeepsPermit (initial 1 5) finishedProbe := by
    apply meets_of_no_abandoned
    simp [finishedProbe, Action.ending, ProviderOutcome.ending]
  exact ⟨s, hrun, (permit_iff hrun).1.mp hmeets⟩

end System

end CountyFlow.Breaker
