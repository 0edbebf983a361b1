import Mathlib.Algebra.Order.Floor.Semiring
import Mathlib.Data.Rat.Floor
import CountyFlow.Lib.TokenBucket

/-!
# The rate limiter

`RedisTokenBucketRateLimiter.admit` of `app/security/rate_limit.py`, for the requests of one subject and one
operation: they share a key, and what Redis holds under it is the state.  Numbers are exact.

The clock of the server counts microseconds, the script whole milliseconds.
-/

namespace CountyFlow.Security

open CountyFlow.Lib

/-- `RateLimitPolicy`, as `__post_init__` lets it through. -/
structure RateLimitPolicy where
  capacity : ℕ
  refillPerMinute : ℕ
  capacity_pos : 0 < capacity
  refill_pos : 0 < refillPerMinute

/-- The hash under the key, and the millisecond until which Redis keeps it. -/
structure RateLimitState where
  tokens : ℚ
  updatedMs : ℕ
  deadline : ℕ

structure ScriptReply where
  allowed : ℤ
  remaining : ℤ
  retrySeconds : ℤ
  resetSeconds : ℤ
  deriving DecidableEq, Repr

structure RateLimitDecision where
  allowed : Bool
  remaining : ℤ
  retryAfterSeconds : ℤ
  resetAfterSeconds : ℤ
  deriving DecidableEq, Repr

/-- `now_ms` of the two numbers that `TIME` returns: the seconds, and the microseconds within the second. -/
def nowMs (time : ℕ) : ℕ := time / 1000000 * 1000 + time % 1000000 / 1000

namespace RateLimitPolicy

variable (policy : RateLimitPolicy)

def refillPerMs : ℚ := policy.refillPerMinute / 60000

def ttlMs : ℕ := max 60000 ⌈(policy.capacity : ℚ) / policy.refillPerMinute * 120000⌉₊

/-- The tokens that the script finds: those that are stored, and those that have flowed in since. -/
def available (now : ℕ) (state : Option RateLimitState) : ℚ :=
  let stored : ℚ := state.elim (policy.capacity : ℚ) RateLimitState.tokens
  let updatedMs := state.elim now RateLimitState.updatedMs
  let elapsedMs : ℕ := now - updatedMs
  min (policy.capacity : ℚ) (stored + elapsedMs * policy.refillPerMs)

/-- `TOKEN_BUCKET_LUA` at a cost of one token: the reply, and what is under the key afterwards. -/
def tokenBucketLua (now : ℕ) (state : Option RateLimitState) : ScriptReply × RateLimitState :=
  let available := policy.available now state
  let allowed := 1 ≤ available
  let tokens := if allowed then available - 1 else available
  let missing := max 0 (1 - tokens)
  ({ allowed := if allowed then 1 else 0
     remaining := ⌊tokens⌋
     retrySeconds := if allowed then 0 else max 1 ⌈missing / policy.refillPerMs / 1000⌉
     resetSeconds := max 1 ⌈(policy.capacity - tokens) / policy.refillPerMs / 1000⌉ },
    { tokens := tokens, updatedMs := now, deadline := now + policy.ttlMs })

/-- What Redis still holds. -/
def live (now : ℕ) (state : Option RateLimitState) : Option RateLimitState :=
  state.filter fun held => now ≤ held.deadline

/-- `admit`, at a time of the server. -/
def admitRequest (time : ℕ) (state : Option RateLimitState) : RateLimitDecision × RateLimitState :=
  let (reply, state) := policy.tokenBucketLua (nowMs time) (live (nowMs time) state)
  ({ allowed := reply.allowed ≠ 0
     remaining := max 0 reply.remaining
     retryAfterSeconds := max 0 reply.retrySeconds
     resetAfterSeconds := max 1 reply.resetSeconds }, state)

/-- The requests of some times, one after the other, with their answers. -/
def log : Option RateLimitState → List ℕ → List (ℕ × Bool)
  | _, [] => []
  | state, time :: times =>
    (time, (policy.admitRequest time state).1.allowed) :: log (some (policy.admitRequest time state).2) times

/-- What is under the key after them. -/
def after : Option RateLimitState → List ℕ → Option RateLimitState
  | state, [] => state
  | state, time :: times => after (some (policy.admitRequest time state).2) times

end RateLimitPolicy

/-! ### The clock -/

theorem nowMs_eq (time : ℕ) : nowMs time = time / 1000 := by
  unfold nowMs
  omega

theorem nowMs_mono {a b : ℕ} (h : a ≤ b) : nowMs a ≤ nowMs b := by
  rw [nowMs_eq, nowMs_eq]
  exact Nat.div_le_div_right h

theorem nowMs_seconds (time n : ℕ) : nowMs (time + n * 1000000) = nowMs time + n * 1000 := by
  rw [nowMs_eq, nowMs_eq]
  omega

/-! ### One request -/

variable {policy : RateLimitPolicy}

theorem RateLimitPolicy.refillPerMs_pos (policy : RateLimitPolicy) : 0 < policy.refillPerMs := by
  have hrefill : (0 : ℚ) < policy.refillPerMinute := Nat.cast_pos.mpr policy.refill_pos
  exact div_pos hrefill (by norm_num)

theorem RateLimitPolicy.one_le_capacity (policy : RateLimitPolicy) : (1 : ℚ) ≤ policy.capacity :=
  Nat.one_le_cast.mpr policy.capacity_pos

theorem capacity_le_ttl (policy : RateLimitPolicy) : (policy.capacity : ℚ) ≤ policy.ttlMs *
    policy.refillPerMs := by
  have hrefill : (0 : ℚ) < policy.refillPerMinute := Nat.cast_pos.mpr policy.refill_pos
  have hcapacity := policy.one_le_capacity
  have hceil : (policy.capacity : ℚ) / policy.refillPerMinute * 120000 ≤ policy.ttlMs := by
    refine (Nat.le_ceil _).trans ?_
    exact Nat.cast_le.mpr (le_max_right _ _)
  calc (policy.capacity : ℚ)
      ≤ policy.capacity / policy.refillPerMinute * 120000 * policy.refillPerMs := by
        rw [RateLimitPolicy.refillPerMs]
        field_simp
        linarith
    _ ≤ policy.ttlMs * policy.refillPerMs :=
        mul_le_mul_of_nonneg_right hceil policy.refillPerMs_pos.le

/-- What is known of what Redis holds: the tokens are within the capacity. -/
structure Held (policy : RateLimitPolicy) (held : RateLimitState) : Prop where
  nonneg : 0 ≤ held.tokens
  bounded : held.tokens ≤ policy.capacity
  deadline : held.deadline = held.updatedMs + policy.ttlMs

theorem available_le (now : ℕ) (state : Option RateLimitState) : policy.available now state ≤
    policy.capacity :=
  min_le_left _ _

theorem available_none (now : ℕ) : policy.available now none = policy.capacity := by
  simp [RateLimitPolicy.available]

variable {held : RateLimitState}

theorem Held.available_nonneg (h : Held policy held) (now : ℕ) : 0 ≤ policy.available now (some held) := by
  have hflow : (0 : ℚ) ≤ (now - held.updatedMs : ℕ) * policy.refillPerMs :=
    mul_nonneg (Nat.cast_nonneg _) policy.refillPerMs_pos.le
  exact le_min (Nat.cast_nonneg _) (add_nonneg h.nonneg hflow)

variable {now : ℕ}

theorem Held.expired (h : Held policy held) (hnow : held.deadline < now) :
    policy.available now (some held) = policy.capacity := by
  have hkept : (policy.ttlMs : ℚ) ≤ (now - held.updatedMs : ℕ) := by
    rw [h.deadline] at hnow
    exact Nat.cast_le.mpr (by omega)
  have hfull : (policy.capacity : ℚ) ≤ (now - held.updatedMs : ℕ) * policy.refillPerMs :=
    (capacity_le_ttl policy).trans (mul_le_mul_of_nonneg_right hkept policy.refillPerMs_pos.le)
  have htokens := h.nonneg
  apply min_eq_left
  show (policy.capacity : ℚ) ≤ held.tokens + (now - held.updatedMs : ℕ) * policy.refillPerMs
  linarith

theorem live_of_le (h : now ≤ held.deadline) : RateLimitPolicy.live now (some held) = some held :=
  Option.filter_some_pos (decide_eq_true h)

theorem live_of_lt (h : held.deadline < now) : RateLimitPolicy.live now (some held) = none :=
  Option.filter_some_neg (by simpa using h)

variable {state : Option RateLimitState}

theorem available_live (h : ∀ held ∈ state, Held policy held) (now : ℕ) :
    policy.available now (RateLimitPolicy.live now state) = policy.available now state := by
  cases state with
  | none => rfl
  | some held =>
    rcases le_or_gt now held.deadline with hnow | hnow
    · rw [live_of_le hnow]
    · rw [live_of_lt hnow, available_none, (h held rfl).expired hnow]

theorem admit_eq (h : ∀ held ∈ state, Held policy held) (time : ℕ) :
    ((policy.admitRequest time state).1.allowed = true ↔ 1 ≤ policy.available (nowMs time) state) ∧
      (policy.admitRequest time state).2 =
        { tokens := policy.available (nowMs time) state -
            TokenBucket.paid 1 (policy.admitRequest time state).1.allowed
          updatedMs := nowMs time
          deadline := nowMs time + policy.ttlMs } := by
  have hlive := available_live h (nowMs time)
  by_cases hone : 1 ≤ policy.available (nowMs time) state
  · simp [RateLimitPolicy.admitRequest, RateLimitPolicy.tokenBucketLua, hlive, TokenBucket.paid, hone]
  · simp [RateLimitPolicy.admitRequest, RateLimitPolicy.tokenBucketLua, hlive, TokenBucket.paid, hone]

theorem Held.admitRequest (h : ∀ held ∈ state, Held policy held) (time : ℕ) :
    Held policy (policy.admitRequest time state).2 := by
  obtain ⟨hallowed, hstate⟩ := admit_eq h time
  have hbounded : policy.available (nowMs time) state ≤ policy.capacity := available_le _ _
  have hnonneg : 0 ≤ policy.available (nowMs time) state := by
    cases state with
    | none =>
      rw [available_none]
      exact Nat.cast_nonneg _
    | some held => exact (h held rfl).available_nonneg _
  rw [hstate]
  cases hanswer : (policy.admitRequest time state).1.allowed with
  | false => exact ⟨by simpa [TokenBucket.paid] using hnonneg, by simpa [TokenBucket.paid] using hbounded,
      rfl⟩
  | true =>
    have hone := hallowed.mp hanswer
    refine ⟨?_, ?_, rfl⟩
    · simpa [TokenBucket.paid] using hone
    · simp only [TokenBucket.paid, if_true]
      linarith

theorem Held.retry (h : ∀ held ∈ state, Held policy held) {time n : ℕ}
    (hrefused : (policy.admitRequest time state).1.allowed = false)
    (hn : (policy.admitRequest time state).1.retryAfterSeconds = n) :
    (policy.admitRequest (time + n * 1000000) (some (policy.admitRequest time state).2)).1.allowed =
      true := by
  obtain ⟨hallowed, hstate⟩ := admit_eq h time
  have hless : policy.available (nowMs time) state < 1 := by
    rw [← not_le, ← hallowed, hrefused]
    exact Bool.false_ne_true
  have hrate := policy.refillPerMs_pos
  have hwait : (1 - policy.available (nowMs time) state) / policy.refillPerMs / 1000 ≤ n := by
    have hretry : (policy.admitRequest time state).1.retryAfterSeconds =
        max 0 (max 1 ⌈max 0 (1 - policy.available (nowMs time) state) / policy.refillPerMs / 1000⌉) := by
      simp [RateLimitPolicy.admitRequest, RateLimitPolicy.tokenBucketLua, available_live h, not_le.mpr hless]
    have hceil : ⌈(1 - policy.available (nowMs time) state) / policy.refillPerMs / 1000⌉ ≤ (n : ℤ) := by
      rw [← hn, hretry, max_eq_right (by linarith : (0 : ℚ) ≤ 1 - policy.available (nowMs time) state)]
      exact (le_max_right _ _).trans (le_max_right _ _)
    exact_mod_cast Int.ceil_le.mp hceil
  have hflow : 1 - policy.available (nowMs time) state ≤ n * 1000 * policy.refillPerMs := by
    rw [div_div, div_le_iff₀ (by positivity)] at hwait
    linarith
  have hheld : ∀ held ∈ some (policy.admitRequest time state).2, Held policy held := by
    intro held hheld
    cases hheld
    exact Held.admitRequest h time
  refine (admit_eq hheld _).1.mpr (le_min policy.one_le_capacity ?_)
  have helapsed : nowMs (time + n * 1000000) - (policy.admitRequest time state).2.updatedMs = n * 1000 := by
    rw [hstate, nowMs_seconds]
    exact Nat.add_sub_cancel_left _ _
  show 1 ≤ (policy.admitRequest time state).2.tokens +
    (nowMs (time + n * 1000000) - (policy.admitRequest time state).2.updatedMs : ℕ) * policy.refillPerMs
  rw [helapsed, hstate, hrefused]
  simp only [TokenBucket.paid, Bool.false_eq_true, if_false, sub_zero, Nat.cast_mul, Nat.cast_ofNat]
  linarith

/-! ### Runs -/

/-- What is under the key, as a bucket: without a key it is full, and has always been. -/
def bucketOf (policy : RateLimitPolicy) (state : Option RateLimitState) : TokenBucket ℚ where
  tokens := state.elim (policy.capacity : ℚ) RateLimitState.tokens
  updated := state.elim (0 : ℚ) fun held => held.updatedMs

theorem Held.draws (h : ∀ held ∈ state, Held policy held) {time : ℕ}
    (hlater : ∀ held ∈ state, held.updatedMs ≤ nowMs time) :
    TokenBucket.Draws (policy.capacity : ℚ) policy.refillPerMs 1 (bucketOf policy state) (nowMs time)
      (policy.admitRequest time state).1.allowed
      (bucketOf policy (some (policy.admitRequest time state).2)) := by
  obtain ⟨-, hstate⟩ := admit_eq h time
  have htokens : (bucketOf policy (some (policy.admitRequest time state).2)).tokens +
      TokenBucket.paid 1 (policy.admitRequest time state).1.allowed =
      policy.available (nowMs time) state := by
    show (policy.admitRequest time state).2.tokens + _ = _
    rw [hstate]
    exact sub_add_cancel _ _
  refine ⟨?_, ?_, ?_, (Held.admitRequest h time).nonneg, ?_⟩
  · cases state with
    | none => exact Nat.cast_nonneg _
    | some held => exact Nat.cast_le.mpr (hlater held rfl)
  · rw [htokens]
    exact available_le _ _
  · rw [htokens]
    cases state with
    | none =>
      have hflow : (0 : ℚ) ≤ policy.refillPerMs * (nowMs time - 0) :=
        mul_nonneg policy.refillPerMs_pos.le (by simp)
      rw [available_none]
      exact le_add_of_nonneg_right hflow
    | some held =>
      refine (min_le_right _ _).trans (le_of_eq ?_)
      show held.tokens + (nowMs time - held.updatedMs : ℕ) * policy.refillPerMs =
        held.tokens + policy.refillPerMs * (nowMs time - held.updatedMs)
      rw [Nat.cast_sub (hlater held rfl), mul_comm]
  · show (((policy.admitRequest time state).2.updatedMs : ℕ) : ℚ) = _
    rw [hstate]

theorem run_log (h : ∀ held ∈ state, Held policy held) {times : List ℕ} (hsorted : times.Pairwise (· ≤ ·))
    (hlater : ∀ held ∈ state, ∀ time ∈ times, held.updatedMs ≤ nowMs time) :
    ∃ b, TokenBucket.Run (policy.capacity : ℚ) policy.refillPerMs 1 (bucketOf policy state)
      ((policy.log state times).map fun entry => ((nowMs entry.1 : ℚ), entry.2)) b := by
  induction times generalizing state with
  | nil => exact ⟨_, .nil _⟩
  | cons time times ih =>
    obtain ⟨hfirst, hrest⟩ := List.pairwise_cons.mp hsorted
    have hdraws := Held.draws h fun held hheld => hlater held hheld time List.mem_cons_self
    have hkept : ∀ held ∈ some (policy.admitRequest time state).2, Held policy held := by
      intro held hheld
      cases hheld
      exact Held.admitRequest h time
    obtain ⟨b, hrun⟩ := ih hkept hrest fun held hheld later hmem => by
      cases hheld
      rw [(admit_eq h time).2]
      exact nowMs_mono (hfirst later hmem)
    exact ⟨b, .cons hdraws hrun⟩

theorem held_after (h : ∀ held ∈ state, Held policy held) (times : List ℕ) :
    ∀ held ∈ policy.after state times, Held policy held := by
  induction times generalizing state with
  | nil => exact h
  | cons time times ih =>
    apply ih
    intro held hheld
    cases hheld
    exact Held.admitRequest h time

/-- The number of requests that are admitted from a time of the server until another. -/
def admittedIn (policy : RateLimitPolicy) (times : List ℕ) (first last : ℕ) : ℕ :=
  (policy.log none times).countP fun entry => decide (first ≤ entry.1 ∧ entry.1 ≤ last) && entry.2

theorem admitted_in_window {times : List ℕ} (hsorted : times.Pairwise (· ≤ ·)) {first last : ℕ}
    (hle : first ≤ last) :
    (admittedIn policy times first last : ℚ) ≤
      policy.capacity + policy.refillPerMinute * (((nowMs last - nowMs first : ℕ) : ℚ) / 60000) := by
  obtain ⟨b, hrun⟩ := @run_log policy none (by simp) times hsorted (by simp)
  have hmono : (nowMs first : ℚ) ≤ nowMs last := Nat.cast_le.mpr (nowMs_mono hle)
  have hwindow := hrun.window (Nat.cast_nonneg _) policy.refillPerMs_pos.le hmono
  rw [one_mul, TokenBucket.admittedIn, List.countP_map] at hwindow
  refine (Nat.cast_le.mpr (List.countP_mono_left fun entry _ hin => ?_)).trans
    (hwindow.trans (le_of_eq ?_))
  · simp only [Bool.and_eq_true, decide_eq_true_eq] at hin
    simp only [Function.comp_apply, Bool.and_eq_true, decide_eq_true_eq, Nat.cast_le]
    exact ⟨⟨nowMs_mono hin.1.1, nowMs_mono hin.1.2⟩, hin.2⟩
  · rw [RateLimitPolicy.refillPerMs, Nat.cast_sub (nowMs_mono hle)]
    ring

theorem nowMs_sub_lt {first last : ℕ} (hle : first ≤ last) :
    ((nowMs last - nowMs first : ℕ) : ℚ) < ((last - first : ℕ) : ℚ) / 1000 + 1 := by
  have hless : (nowMs last - nowMs first) * 1000 < (last - first) + 1000 := by
    rw [nowMs_eq, nowMs_eq]
    omega
  have hcast : ((nowMs last - nowMs first : ℕ) : ℚ) * 1000 < ((last - first : ℕ) : ℚ) + 1000 := by
    exact_mod_cast hless
  linarith

/-- **What the limiter promises**, for times of the server in microseconds: in an interval of some minutes
fewer requests are admitted than the capacity and the inflow of these minutes and of one millisecond; the
tokens stay within the capacity; an expired key grants no more than the inflow would have; and a refused
request is admitted after the seconds it has been told. -/
theorem limiter_promises (policy : RateLimitPolicy) (times : List ℕ) (hsorted : times.Pairwise (· ≤ ·)) :
    (∀ first last : ℕ, first ≤ last →
      (admittedIn policy times first last : ℚ) ≤
        policy.capacity + policy.refillPerMinute * (((nowMs last - nowMs first : ℕ) : ℚ) / 60000) ∧
      (admittedIn policy times first last : ℚ) <
        policy.capacity + policy.refillPerMinute * (((last - first : ℕ) : ℚ) / 60000000 + 1 / 60000)) ∧
    (∀ held ∈ policy.after none times, 0 ≤ held.tokens ∧ held.tokens ≤ policy.capacity) ∧
    (∀ held ∈ policy.after none times, ∀ now, held.deadline < now →
      policy.available now none ≤ held.tokens + (now - held.updatedMs : ℕ) * policy.refillPerMs) ∧
    ∀ time n : ℕ, (policy.admitRequest time (policy.after none times)).1.allowed = false →
      (policy.admitRequest time (policy.after none times)).1.retryAfterSeconds = n →
      (policy.admitRequest (time + n * 1000000)
        (some (policy.admitRequest time (policy.after none times)).2)).1.allowed =
        true := by
  have hheld := @held_after policy none (by simp) times
  refine ⟨fun first last hle => ?_, fun held hmem => ?_, fun held hmem now hnow => ?_, fun time n => ?_⟩
  · have hwindow := @admitted_in_window policy times hsorted first last hle
    have hrefill : (0 : ℚ) < policy.refillPerMinute := Nat.cast_pos.mpr policy.refill_pos
    have hlonger : (policy.refillPerMinute : ℚ) * (((nowMs last - nowMs first : ℕ) : ℚ) / 60000) <
        policy.refillPerMinute * (((last - first : ℕ) : ℚ) / 60000000 + 1 / 60000) :=
      mul_lt_mul_of_pos_left (by linarith [nowMs_sub_lt hle]) hrefill
    exact ⟨hwindow, by linarith⟩
  · exact ⟨(hheld held hmem).nonneg, (hheld held hmem).bounded⟩
  · rw [available_none, ← (hheld held hmem).expired hnow]
    exact min_le_right _ _
  · exact Held.retry hheld

def onePerMinute : RateLimitPolicy := ⟨1, 1, by decide, by decide⟩

/-- A request at the end of a millisecond and one at the beginning of another, less than a minute later. -/
theorem limiter_promises_onePerMinute :
    (∀ first last : ℕ, first ≤ last →
      (admittedIn onePerMinute [999, 60000000] first last : ℚ) ≤
        onePerMinute.capacity + onePerMinute.refillPerMinute *
        (((nowMs last - nowMs first : ℕ) : ℚ) / 60000) ∧
      (admittedIn onePerMinute [999, 60000000] first last : ℚ) <
        onePerMinute.capacity +
          onePerMinute.refillPerMinute * (((last - first : ℕ) : ℚ) / 60000000 + 1 / 60000)) ∧
    (∀ held ∈ onePerMinute.after none [999, 60000000],
      0 ≤ held.tokens ∧ held.tokens ≤ onePerMinute.capacity) ∧
    (∀ held ∈ onePerMinute.after none [999, 60000000], ∀ now, held.deadline < now →
      onePerMinute.available now none ≤
        held.tokens + (now - held.updatedMs : ℕ) * onePerMinute.refillPerMs) ∧
    ∀ time n : ℕ, (onePerMinute.admitRequest time (onePerMinute.after none [999, 60000000])).1.allowed =
      false →
      (onePerMinute.admitRequest time (onePerMinute.after none [999, 60000000])).1.retryAfterSeconds = n →
      (onePerMinute.admitRequest (time + n * 1000000)
        (some (onePerMinute.admitRequest time (onePerMinute.after none [999, 60000000])).2)).1.allowed =
        true :=
  limiter_promises onePerMinute [999, 60000000] (by decide)

/-- Both are admitted, though no minute has passed between them: two in less than a minute, where one token
and less than another were there. -/
theorem two_within_a_minute :
    ¬ (admittedIn onePerMinute [999, 60000000] 999 60000000 : ℚ) ≤
      onePerMinute.capacity + onePerMinute.refillPerMinute * ((60000000 - 999 : ℚ) / 60000000) := by
  decide +kernel

end CountyFlow.Security
