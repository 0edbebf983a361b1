import CountyFlow.Breaker.Circuit
import CountyFlow.Lib.Runs

/-!
# Calls that share a breaker

Any number of calls of `EnvironmentService.get_environment` and `RealRoadRouteService.plan` on one
`CircuitBreaker`.  A call is admitted or refused in one step and ends in another, with whatever its
provider does; the clock readings are part of the actions, so that the clock is any.

How a call was admitted is history: the code keeps no identity of a request.
-/

namespace CountyFlow.Breaker

open CountyFlow.Lib Function

/-- How `allow_request` let a call through: by a closed breaker, or as the probe of another one, at a
reading of the clock. -/
inductive Admission where
  | closed
  | probe (clock : ℚ)
  deriving DecidableEq, Repr

inductive Answer where
  | environment (result : EnvironmentResult)
  | route (route : RealRoadRoute)
  deriving DecidableEq, Repr

/-- A call: under way once it has been admitted, until its provider's call has ended. -/
inductive CallState where
  | idle
  | environment (routeId : String) (admission : Admission)
  | route (waypoints : List GeoPoint) (admission : Admission)
  | finished (result : Except Raised Answer)

def CallState.admission : CallState → Option Admission
  | .environment _ admission | .route _ admission => some admission
  | .idle | .finished _ => none

@[simp] theorem CallState.admission_idle : CallState.idle.admission = none := rfl
@[simp] theorem CallState.admission_finished (result : Except Raised Answer) :
    (CallState.finished result).admission = none := rfl

structure System where
  breaker : CircuitBreaker
  calls : ℕ → CallState

inductive Action where
  | getEnvironment (p : ℕ) (routeId : String) (clock : ℚ)
  | plan (p : ℕ) (nodeIds : List String) (clock : ℚ)
  | environmentEnds (p : ℕ) (outcome : ProviderOutcome EnvironmentResult) (clock : ℚ)
  | routeEnds (p : ℕ) (outcome : ProviderOutcome DrivingRouteResult) (clock : ℚ)
  deriving DecidableEq, Repr

/-- The end of a call, as the breaker hears of it: an abandoned call is one it never hears of. -/
inductive Ending where
  | succeeded
  | failed (clock : ℚ)
  | abandoned
  deriving DecidableEq, Repr

def ProviderOutcome.ending {ρ : Type} (clock : ℚ) : ProviderOutcome ρ → Ending
  | .returned _ => .succeeded
  | .providerError _ => .failed clock
  | .raised _ | .cancelled => .abandoned

def Action.ending : Action → Option (ℕ × Ending)
  | .environmentEnds p outcome clock => some (p, outcome.ending clock)
  | .routeEnds p outcome clock => some (p, outcome.ending clock)
  | .getEnvironment _ _ _ | .plan _ _ _ => none

def Action.caller : Action → ℕ
  | .getEnvironment p _ _ | .plan p _ _ | .environmentEnds p _ _ | .routeEnds p _ _ => p

def CircuitBreaker.hears (b : CircuitBreaker) : Ending → CircuitBreaker
  | .succeeded => b.recordSuccess
  | .failed clock => b.recordFailure clock
  | .abandoned => b

theorem Guarded.resume_breaker {ρ α : Type} (g : Guarded ρ α) (b : CircuitBreaker) (clock : ℚ)
    (outcome : ProviderOutcome ρ) : (g.resume b clock outcome).2 = b.hears (outcome.ending clock) := by
  cases outcome <;> rfl

variable {s s' : System} {a : Action} {q : ℕ}

namespace System

def initial (failureThreshold : ℤ) (recoverySeconds : ℚ) : System :=
  ⟨.new failureThreshold recoverySeconds, fun _ => .idle⟩

/-- A call asks the breaker: it is under way, or answered at once. -/
def enter (s : System) (p : ℕ) (waiting : Admission → CallState) (refused : Answer) (clock : ℚ) :
    System :=
  let (allowed, breaker) := s.breaker.allowRequest clock
  let admission := if s.breaker.state = .closed then .closed else .probe clock
  ⟨breaker, update s.calls p
    (if allowed then waiting admission else .finished (.ok refused))⟩

/-- The state after an action, `none` when it is not enabled. -/
def step (s : System) : Action → Option System
  | .getEnvironment p routeId clock =>
    match s.calls p with
    | .idle => some (s.enter p (.environment routeId)
        (.environment (Breaker.getEnvironment routeId).refused) clock)
    | _ => none
  | .plan p nodeIds clock =>
    match s.calls p with
    | .idle =>
      match checkedWaypoints nodeIds with
      | .error e => some { s with calls := update s.calls p (.finished (.error e)) }
      | .ok waypoints =>
        some (s.enter p (.route waypoints) (.route (planRoute waypoints).refused) clock)
    | _ => none
  | .environmentEnds p outcome clock =>
    match s.calls p with
    | .environment routeId _ =>
      let (result, breaker) := (Breaker.getEnvironment routeId).resume s.breaker clock outcome
      some ⟨breaker, update s.calls p (.finished (result.map .environment))⟩
    | _ => none
  | .routeEnds p outcome clock =>
    match s.calls p with
    | .route waypoints _ =>
      let (result, breaker) := (planRoute waypoints).resume s.breaker clock outcome
      some ⟨breaker, update s.calls p (.finished (result.map .route))⟩
    | _ => none

/-- The call has been admitted and has not ended. -/
def InFlight (s : System) (p : ℕ) : Prop := (s.calls p).admission ≠ none

instance (s : System) (p : ℕ) : Decidable (s.InFlight p) :=
  inferInstanceAs (Decidable (_ ≠ _))

/-- The call is under way as a probe. -/
def Probing (s : System) (p : ℕ) : Prop := ∃ clock, (s.calls p).admission = some (.probe clock)

/-! ### What a step does -/

/-- **Every step**: a call is answered at once, admitted by a closed breaker, admitted as a probe, or
ended. -/
inductive Moves (s : System) (a : Action) : System → Prop
  | answered {p : ℕ} {result : Except Raised Answer} : a.ending = none → s.calls p = .idle →
      Moves s a ⟨s.breaker, update s.calls p (.finished result)⟩
  | admitted {p : ℕ} {st : CallState} : a.ending = none → s.calls p = .idle →
      s.breaker.state = .closed → st.admission = some .closed →
      Moves s a ⟨s.breaker, update s.calls p st⟩
  | probed {p : ℕ} {st : CallState} {clock : ℚ} : a.ending = none → s.calls p = .idle →
      (s.breaker.state = .open ∧ s.breaker.recovered clock = true ∨
        s.breaker.state = .halfOpen ∧ s.breaker.halfOpenProbeInFlight = false) →
      st.admission = some (.probe clock) →
      Moves s a ⟨{ s.breaker with state := .halfOpen, halfOpenProbeInFlight := true },
        update s.calls p st⟩
  | ended {p : ℕ} {ending : Ending} {admission : Admission} {result : Except Raised Answer} :
      a.ending = some (p, ending) → (s.calls p).admission = some admission →
      Moves s a ⟨s.breaker.hears ending, update s.calls p (.finished result)⟩

theorem enter_moves {p : ℕ} {waiting : Admission → CallState} (ha : a.ending = none)
    (hidle : s.calls p = .idle) (hwaiting : ∀ admission, (waiting admission).admission = some admission)
    (refused : Answer) (clock : ℚ) : Moves s a (s.enter p waiting refused clock) := by
  unfold enter
  rcases CircuitBreaker.allowRequest_cases s.breaker clock with
    ⟨hstate, hasked⟩ | ⟨hstate, hasked⟩ | ⟨hstate, hasked⟩
  · simp only [hasked, hstate, if_true]
    exact .admitted ha hidle hstate (hwaiting _)
  · simp only [hasked, Bool.false_eq_true, if_false]
    exact .answered ha hidle
  · have hopen : s.breaker.state ≠ .closed := by
      rcases hstate with ⟨h, -⟩ | ⟨h, -⟩ <;> simp [h]
    simp only [hasked, hopen, if_true, if_false]
    exact .probed ha hidle hstate (hwaiting _)

/-- All that an action on the breaker can do. -/
theorem step_moves (h : step s a = some s') : Moves s a s' := by
  cases a with
  | getEnvironment p routeId clock =>
    simp only [step] at h
    split at h
    · rename_i hidle
      cases h
      exact enter_moves rfl hidle (fun _ => rfl) _ clock
    · cases h
  | plan p nodeIds clock =>
    simp only [step] at h
    split at h
    · rename_i hidle
      split at h
      · cases h
        exact .answered rfl hidle
      · cases h
        exact enter_moves rfl hidle (fun _ => rfl) _ clock
    · cases h
  | environmentEnds p outcome clock =>
    simp only [step] at h
    split at h
    · rename_i routeId admission hcall
      cases h
      rw [Guarded.resume_breaker]
      exact .ended rfl (by rw [hcall]; rfl)
    · cases h
  | routeEnds p outcome clock =>
    simp only [step] at h
    split at h
    · rename_i waypoints admission hcall
      cases h
      rw [Guarded.resume_breaker]
      exact .ended rfl (by rw [hcall]; rfl)
    · cases h

/-- An action touches the call of its caller only. -/
theorem step_calls (h : step s a = some s') (hq : q ≠ a.caller) : s'.calls q = s.calls q := by
  cases a with
  | getEnvironment p routeId clock =>
    simp only [step] at h
    split at h
    · cases h
      exact update_of_ne hq _ _
    · cases h
  | plan p nodeIds clock =>
    simp only [step] at h
    split at h
    · split at h
      · cases h
        exact update_of_ne hq _ _
      · cases h
        exact update_of_ne hq _ _
    · cases h
  | environmentEnds p outcome clock =>
    simp only [step] at h
    split at h
    · cases h
      exact update_of_ne hq _ _
    · cases h
  | routeEnds p outcome clock =>
    simp only [step] at h
    split at h
    · cases h
      exact update_of_ne hq _ _
    · cases h

theorem exec_calls {run : List Action} (hrun : exec step s run = some s')
    (hq : ∀ a ∈ run, q ≠ a.caller) : s'.calls q = s.calls q := by
  induction run generalizing s with
  | nil =>
    rw [exec_nil, Option.some.injEq] at hrun
    rw [hrun]
  | cons a run ih =>
    obtain ⟨m, hm, hrest⟩ := exec_cons_eq_some.mp hrun
    rw [ih hrest (fun b hb => hq b (List.mem_cons_of_mem a hb)),
      step_calls hm (hq a List.mem_cons_self)]

theorem admission_update (calls : ℕ → CallState) (p q : ℕ) (st : CallState) :
    (update calls p st q).admission = if q = p then st.admission else (calls q).admission := by
  by_cases h : q = p
  · subst h
    simp
  · simp [h]

/-! ### What holds of the breaker -/

/-- **The breaker is sound**: it has opened at some time exactly when it is not closed, it has a probe
in flight exactly when it is half-open, and only failures enough have opened it. -/
structure Sound (s : System) : Prop where
  opened : s.breaker.openedAt.isSome = true ↔ s.breaker.state ≠ .closed
  probe : s.breaker.halfOpenProbeInFlight = true ↔ s.breaker.state = .halfOpen
  failures : s.breaker.state ≠ .closed → s.breaker.failureThreshold ≤ s.breaker.failureCount

theorem initial_sound (failureThreshold : ℤ) (recoverySeconds : ℚ) :
    (initial failureThreshold recoverySeconds).Sound :=
  ⟨by simp [initial, CircuitBreaker.new], by simp [initial, CircuitBreaker.new],
    by simp [initial, CircuitBreaker.new]⟩

theorem recordFailure_sound (hs : s.Sound) (clock : ℚ) (calls : ℕ → CallState) :
    (⟨s.breaker.recordFailure clock, calls⟩ : System).Sound := by
  unfold CircuitBreaker.recordFailure
  split
  · rename_i hhalf
    exact ⟨by simp, by simp, fun _ => hs.failures (by simp [hhalf])⟩
  · rename_i hhalf
    dsimp only
    split
    · rename_i hthreshold
      exact ⟨by simp, by simp, fun _ => hthreshold⟩
    · rename_i hthreshold
      refine ⟨hs.opened, hs.probe, fun hopen => ?_⟩
      have hfailures := hs.failures hopen
      exact absurd (hfailures.trans (by omega)) hthreshold

theorem step_sound (hs : s.Sound) (h : step s a = some s') : s'.Sound := by
  cases step_moves h with
  | answered _ _ => exact ⟨hs.opened, hs.probe, hs.failures⟩
  | admitted _ _ _ _ => exact ⟨hs.opened, hs.probe, hs.failures⟩
  | probed _ _ hstate _ =>
    have hopen : s.breaker.state ≠ .closed := by
      rcases hstate with ⟨h, -⟩ | ⟨h, -⟩ <;> simp [h]
    exact ⟨by simp [hs.opened.mpr hopen], by simp, fun _ => hs.failures hopen⟩
  | @ended p ending admission result _ _ =>
    cases ending with
    | succeeded => exact ⟨by simp [CircuitBreaker.hears, CircuitBreaker.recordSuccess],
        by simp [CircuitBreaker.hears, CircuitBreaker.recordSuccess],
        by simp [CircuitBreaker.hears, CircuitBreaker.recordSuccess]⟩
    | failed clock => exact recordFailure_sound hs clock _
    | abandoned => exact ⟨hs.opened, hs.probe, hs.failures⟩

end System

end CountyFlow.Breaker
