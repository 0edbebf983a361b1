import CountyFlow.Breaker.Permit

/-!
# Closing an open breaker

A result is recorded without saying how its request was admitted.  A request of the closed state that
ends while the breaker is open or half-open is late: its success closes the breaker, its failure opens
it anew and takes the permit from the probe.
-/

namespace CountyFlow.Breaker

open CountyFlow.Lib Function

variable {a : Action} {p : ℕ} {b : CircuitBreaker} {st : CallState} {s' : System}

namespace System

/-- The end of a call that a closed breaker admitted, while the breaker is not closed. -/
def Late (s : System) (a : Action) (ending : Ending) : Prop :=
  s.breaker.state ≠ .closed ∧ ∃ p, a.ending = some (p, ending) ∧ (s.calls p).admission = some .closed

/-- **A breaker that closes only through its probe**, one step: -/
structure ThroughProbe (s : System) (a : Action) (s' : System) : Prop where
  /-- it closes by the success of a request that was admitted as the probe, after the recovery time; -/
  closes : s.breaker.state ≠ .closed → s'.breaker.state = .closed →
    ∃ p clock t, a.ending = some (p, .succeeded) ∧ (s.calls p).admission = some (.probe clock) ∧
      s.breaker.openedAt = some t ∧ t + s.breaker.recoverySeconds ≤ clock
  /-- a late result does not close it, -/
  late_state : ∀ ending, s.Late a ending → s'.breaker.state ≠ .closed
  /-- nor does it postpone the recovery time, -/
  late_recovery : ∀ ending, s.Late a ending → ∀ t', s'.breaker.openedAt = some t' →
    ∃ t, s.breaker.openedAt = some t ∧ t' ≤ t
  /-- nor does it let a second probe through; -/
  late_probe : ∀ ending, s.Late a ending → (∃ q, s.Probing q) →
    ∀ clock, (s'.breaker.allowRequest clock).1 = false
  /-- and one request at most that was admitted since it opened is under way. -/
  lone : s'.breaker.state ≠ .closed → ∀ p q, s'.Probing p → s'.Probing q → p = q

/-- **The condition**: a late call ends without a record, or in a failure that is recorded at the time of
the opening at the latest, with no probe under way. -/
def OnTime (s : System) (a : Action) : Prop :=
  ∀ ending, s.Late a ending →
    match ending with
    | .succeeded => False
    | .failed clock => (∃ t, s.breaker.openedAt = some t ∧ clock ≤ t) ∧ ¬ ∃ q, s.Probing q
    | .abandoned => True

/-- The action ends no late call. -/
def Timely (s : System) (a : Action) : Prop :=
  match a.ending with
  | none => True
  | some (p, _) => s.breaker.state = .closed ∨ (s.calls p).admission ≠ some .closed

instance (s : System) (a : Action) : Decidable (s.Timely a) := by
  unfold Timely
  split <;> infer_instance

variable {s : System}

theorem onTime_of_timely (h : s.Timely a) : OnTime s a := by
  rintro ending ⟨hopen, p, hending, hclosed⟩
  simp only [Timely, hending] at h
  rcases h with h | h
  · exact absurd h hopen
  · exact absurd hclosed h

/-- What the condition keeps: the probe is under way in a half-open breaker, was admitted after the
recovery time, and is the only one. -/
structure Alone (s : System) : Prop where
  sound : s.Sound
  admitted : ∀ p clock, (s.calls p).admission = some (.probe clock) →
    s.breaker.state = .halfOpen ∧
      ∃ t, s.breaker.openedAt = some t ∧ t + s.breaker.recoverySeconds ≤ clock
  lone : ∀ p q, s.Probing p → s.Probing q → p = q

theorem initial_alone (failureThreshold : ℤ) (recoverySeconds : ℚ) :
    (initial failureThreshold recoverySeconds).Alone := by
  refine ⟨initial_sound _ _, fun p clock h => ?_, fun p q h => ?_⟩
  · cases h
  · obtain ⟨clock, h⟩ := h
    cases h

/-! ### The calls of the next state -/

theorem probing_of_update {q : ℕ} (hst : ∀ clock, st.admission ≠ some (.probe clock))
    (h : Probing ⟨b, update s.calls p st⟩ q) : q ≠ p ∧ s.Probing q := by
  obtain ⟨clock, h⟩ := h
  rw [admission_update] at h
  by_cases hqp : q = p
  · rw [if_pos hqp] at h
    exact absurd h (hst clock)
  · rw [if_neg hqp] at h
    exact ⟨hqp, clock, h⟩

theorem alone_update (hs : s.Alone) (hsound : Sound ⟨b, update s.calls p st⟩)
    (hst : ∀ clock, st.admission ≠ some (.probe clock))
    (hb : (∃ q, q ≠ p ∧ s.Probing q) → b = s.breaker) : Alone ⟨b, update s.calls p st⟩ := by
  refine ⟨hsound, fun q clock hq => ?_, fun q r hq hr => ?_⟩
  · obtain ⟨hqp, hprobing⟩ := probing_of_update hst ⟨clock, hq⟩
    obtain rfl := hb ⟨q, hqp, hprobing⟩
    rw [admission_update, if_neg hqp] at hq
    exact hs.admitted q clock hq
  · exact hs.lone q r (probing_of_update hst hq).2 (probing_of_update hst hr).2

theorem Alone.no_other (hs : s.Alone) (hp : s.Probing p) : ¬ ∃ q, q ≠ p ∧ s.Probing q := by
  rintro ⟨q, hqp, hq⟩
  exact hqp (hs.lone q p hq hp)

theorem Alone.nobody (hs : s.Alone)
    (hstate : s.breaker.state = .open ∨
    s.breaker.state = .halfOpen ∧ s.breaker.halfOpenProbeInFlight = false) (q : ℕ) : ¬ s.Probing q := by
  rintro ⟨clock, hq⟩
  have hhalf := (hs.admitted q clock hq).1
  rcases hstate with hopen | ⟨-, hfree⟩
  · rw [hhalf] at hopen
    cases hopen
  · rw [hs.sound.probe.mpr hhalf] at hfree
    cases hfree

/-! ### One step -/

theorem recordFailure_of_not_closed (hs : s.Sound) (hopen : s.breaker.state ≠ .closed) (clock : ℚ) :
    ∃ count,
      s.breaker.recordFailure clock = ({ s.breaker with failureCount := count }).opens clock := by
  apply CircuitBreaker.recordFailure_open
  have hfailures := hs.failures hopen
  omega

/-- A step in time leaves the probe the only one. -/
theorem step_alone (hs : s.Alone) (hon : OnTime s a) (h : step s a = some s') : s'.Alone := by
  have hsound := step_sound hs.sound h
  cases step_moves h with
  | @answered p result _ _ =>
    exact alone_update hs hsound (by simp) (fun _ => rfl)
  | @admitted p st _ _ _ hadmission =>
    exact alone_update hs hsound (by simp [hadmission]) (fun _ => rfl)
  | @probed p st clock _ _ hstate hadmission =>
    have hnobody : ∀ q, ¬ s.Probing q := by
      apply hs.nobody
      exact hstate.imp And.left id
    have honly (q : ℕ)
        (hq : Probing ⟨{ s.breaker with state := .halfOpen, halfOpenProbeInFlight := true },
          update s.calls p st⟩ q) : q = p := by
      by_contra hqp
      obtain ⟨clock', hq⟩ := hq
      rw [admission_update, if_neg hqp] at hq
      exact hnobody q ⟨clock', hq⟩
    refine ⟨hsound, fun q clock' hq => ⟨rfl, ?_⟩, fun q r hq hr => (honly q hq).trans (honly r hr).symm⟩
    obtain rfl := honly q ⟨clock', hq⟩
    rw [admission_update, if_pos rfl, hadmission] at hq
    obtain rfl := Admission.probe.inj (Option.some.inj hq)
    rcases hstate with ⟨hopen, hrecovered⟩ | ⟨hhalf, hfree⟩
    · obtain ⟨t, ht⟩ := Option.isSome_iff_exists.mp (hs.sound.opened.mpr (by simp [hopen]))
      exact ⟨t, ht, (CircuitBreaker.recovered_iff ht).mp hrecovered⟩
    · rw [hs.sound.probe.mpr hhalf] at hfree
      cases hfree
  | @ended p ending admission result hending hcall =>
    apply alone_update hs hsound (by simp)
    intro hother
    cases admission with
    | probe clock => exact absurd hother (hs.no_other ⟨clock, hcall⟩)
    | closed =>
      -- somebody is the probe, so that the breaker is half-open and the call is late
      obtain ⟨q, -, clock, hq⟩ := hother
      have hhalf := (hs.admitted q clock hq).1
      have hlate : s.Late a ending := ⟨by simp [hhalf], p, hending, hcall⟩
      have hcondition := hon ending hlate
      cases ending with
      | succeeded => exact hcondition.elim
      | failed clock' => exact absurd ⟨q, clock, hq⟩ hcondition.2
      | abandoned => rfl

theorem not_late {ending : Ending} (hnone : a.ending = none) : ¬ s.Late a ending := by
  rintro ⟨-, p, h, -⟩
  rw [hnone] at h
  cases h

theorem through_probe_of_request (hnone : a.ending = none)
    (hstate : s'.breaker.state = .closed → s.breaker.state = .closed)
    (hlone : ∀ p q, s'.Probing p → s'.Probing q → p = q) : ThroughProbe s a s' where
  closes := fun hopen hclosed => absurd (hstate hclosed) hopen
  late_state := fun _ hlate => absurd hlate (not_late hnone)
  late_recovery := fun _ hlate => absurd hlate (not_late hnone)
  late_probe := fun _ hlate => absurd hlate (not_late hnone)
  lone := fun _ => hlone

theorem through_probe_of_onTime (hs : s.Alone) (hon : OnTime s a)
    (h : step s a = some s') : ThroughProbe s a s' := by
  have hlone := (step_alone hs hon h).lone
  cases step_moves h with
  | answered hnone _ => exact through_probe_of_request hnone id hlone
  | admitted hnone _ _ _ => exact through_probe_of_request hnone id hlone
  | probed hnone _ _ _ => exact through_probe_of_request hnone (by simp) hlone
  | @ended p ending admission result hending hcall =>
    have hthis {ending' : Ending} (hlate : s.Late a ending') :
        ending' = ending ∧ admission = .closed := by
      obtain ⟨-, q, hq, hclosed⟩ := hlate
      rw [hending] at hq
      cases hq
      rw [hcall] at hclosed
      exact ⟨rfl, Option.some.inj hclosed⟩
    cases admission with
    | probe clock =>
      obtain ⟨hhalf, t, ht, hclock⟩ := hs.admitted p clock hcall
      refine ⟨fun hopen hclosed => ?_, fun _ hlate => ?_, fun _ hlate => ?_, fun _ hlate => ?_,
        fun _ => hlone⟩
      · cases ending with
        | succeeded => exact ⟨p, clock, t, hending, hcall, ht, hclock⟩
        | abandoned => exact absurd hclosed hopen
        | failed clock' =>
          obtain ⟨count, hopened⟩ := recordFailure_of_not_closed hs.sound hopen clock'
          simp [CircuitBreaker.hears, hopened] at hclosed
      · cases (hthis hlate).2
      · cases (hthis hlate).2
      · cases (hthis hlate).2
    | closed =>
      by_cases hstate : s.breaker.state = .closed
      · exact ⟨fun hopen => absurd hstate hopen, fun _ hlate => absurd hstate hlate.1,
          fun _ hlate => absurd hstate hlate.1, fun _ hlate => absurd hstate hlate.1,
          fun _ => hlone⟩
      · have hcondition := hon ending ⟨hstate, p, hending, hcall⟩
        cases ending with
        | succeeded => exact hcondition.elim
        | abandoned =>
          refine ⟨fun _ hclosed => absurd hclosed hstate, fun _ _ => hstate, fun _ _ t' ht' =>
            ⟨t', ht', le_refl _⟩, ?_, fun _ => hlone⟩
          rintro _ _ ⟨q, clock, hq⟩ clock'
          have hhalf := (hs.admitted q clock hq).1
          show (s.breaker.allowRequest clock').1 = false
          simp [CircuitBreaker.allowRequest, hhalf, hs.sound.probe.mpr hhalf]
        | failed clock =>
          obtain ⟨⟨t, ht, hle⟩, hnobody⟩ := hcondition
          obtain ⟨count, hopened⟩ := recordFailure_of_not_closed hs.sound hstate clock
          refine ⟨fun _ hclosed => ?_, fun _ _ => ?_, fun _ _ t' ht' => ⟨t, ht, ?_⟩,
            fun _ _ hprobing => absurd hprobing hnobody, fun _ => hlone⟩
          · simp [CircuitBreaker.hears, hopened] at hclosed
          · simp [CircuitBreaker.hears, hopened]
          · simp only [CircuitBreaker.hears, hopened, CircuitBreaker.opens_openedAt,
              Option.some.injEq] at ht'
            rw [← ht']
            exact hle

theorem onTime_of_through_probe (hs : s.Sound) (hprobe : ThroughProbe s a s')
    (h : step s a = some s') : OnTime s a := by
  intro ending hlate
  have hafter : s'.breaker = s.breaker.hears ending := by
    obtain ⟨-, p, hp, -⟩ := hlate
    cases step_moves h with
    | answered hnone _ => rw [hnone] at hp; cases hp
    | admitted hnone _ _ _ => rw [hnone] at hp; cases hp
    | probed hnone _ _ _ => rw [hnone] at hp; cases hp
    | ended hending _ =>
      rw [hending] at hp
      obtain ⟨-, rfl⟩ := Prod.mk.inj (Option.some.inj hp)
      rfl
  cases ending with
  | abandoned => trivial
  | succeeded =>
    apply hprobe.late_state _ hlate
    simp [hafter, CircuitBreaker.hears]
  | failed clock =>
    obtain ⟨count, hopened⟩ := recordFailure_of_not_closed hs hlate.1 clock
    have hbreaker : s'.breaker = ({ s.breaker with failureCount := count }).opens clock := by
      rw [hafter]
      exact hopened
    constructor
    · apply hprobe.late_recovery _ hlate
      simp [hbreaker]
    · intro hprobing
      -- the breaker is open again: it lets a request through after its recovery time
      have hrefused := hprobe.late_probe _ hlate hprobing (clock + s.breaker.recoverySeconds)
      have hrecovered : s'.breaker.recovered (clock + s.breaker.recoverySeconds) = true := by
        have hat : s'.breaker.openedAt = some clock := by simp [hbreaker]
        apply (CircuitBreaker.recovered_iff hat).mpr
        simp [hbreaker, CircuitBreaker.opens]
      have hopen : s'.breaker.state = .open := by simp [hbreaker]
      simp [CircuitBreaker.allowRequest, hopen, hrecovered] at hrefused

theorem onTime_iff (hs : s.Alone) (h : step s a = some s') : OnTime s a ↔ ThroughProbe s a s' :=
  ⟨fun hon => through_probe_of_onTime hs hon h,
    fun hprobe => onTime_of_through_probe hs.sound hprobe h⟩

/-- **An open breaker closes only through its probe exactly in the runs that record no late result.** -/
theorem through_probe_iff {failureThreshold : ℤ} {recoverySeconds : ℚ} {s : System} {run : List Action}
    (hrun : exec step (initial failureThreshold recoverySeconds) run = some s) :
    Meets step OnTime (initial failureThreshold recoverySeconds) run ↔
      Meets step (fun s a => ∀ s', step s a = some s' → ThroughProbe s a s')
        (initial failureThreshold recoverySeconds) run := by
  apply meets_iff_of_step (I := Alone) _ (fun _ _ _ hs h => onTime_iff hs h) hrun (initial_alone _ _)
  intro s a s' hs hprobe h
  exact step_alone hs (onTime_of_through_probe hs.sound hprobe h) h

theorem through_probe_iff_finishedProbe :
    (∃ s, exec step (initial 1 5) finishedProbe = some s) ∧
      Meets step (fun s a => ∀ s', step s a = some s' → ThroughProbe s a s') (initial 1 5)
        finishedProbe := by
  have hsome : (exec step (initial 1 5) finishedProbe).isSome = true := by decide +kernel
  obtain ⟨s, hrun⟩ := Option.isSome_iff_exists.mp hsome
  refine ⟨⟨s, hrun⟩, (through_probe_iff hrun).mp ?_⟩
  apply Meets.mono fun s a => onTime_of_timely
  decide +kernel

/-! ### A late success -/

/-- Two calls are let through; the failure of one opens the breaker, the success of the other comes
after it. -/
def lateSuccess : List Action :=
  [.getEnvironment 0 "R001" 0, .getEnvironment 1 "R001" 0,
    .environmentEnds 0 (.providerError true) 1]

/-- **A late success closes the breaker**: it is open at `1` with a recovery time of `60`, and closed by
a call that it admitted before it opened, without a probe. -/
theorem late_success_closes : ∃ s s',
    exec step (initial 1 60) lateSuccess = some s ∧ s.breaker.state = .open ∧
      s.breaker.openedAt = some 1 ∧
      step s (.environmentEnds 1 (.returned (getFallback "R001" "")) 2) = some s' ∧
      s'.breaker.state = .closed ∧
      ¬ ThroughProbe s (.environmentEnds 1 (.returned (getFallback "R001" "")) 2) s' := by
  have hmap : (exec step (initial 1 60) lateSuccess).map
      (fun s => (s.breaker.state, s.breaker.openedAt, (s.calls 1).admission,
        (step s (.environmentEnds 1 (.returned (getFallback "R001" "")) 2)).map
          fun s' => s'.breaker.state)) =
      some (.open, some 1, some .closed, some .closed) := by decide +kernel
  obtain ⟨s, hrun, hs⟩ := Option.map_eq_some_iff.mp hmap
  simp only [Prod.mk.injEq] at hs
  obtain ⟨hopen, hopened, hadmitted, hnext⟩ := hs
  obtain ⟨s', hstep, hclosed⟩ := Option.map_eq_some_iff.mp hnext
  refine ⟨s, s', hrun, hopen, hopened, hstep, hclosed, fun hprobe => ?_⟩
  apply hprobe.late_state .succeeded ⟨by simp [hopen], 1, rfl, hadmitted⟩
  exact hclosed

end System

end CountyFlow.Breaker
