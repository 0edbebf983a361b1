import CountyFlow.Lib.FixedWindow
import CountyFlow.Security.RateLimit

/-!
# Admission

`RateLimitAdmission.check` of `app/security/rate_limit.py`: the limiter in Redis decides, and while it is
unavailable operations of high risk are refused and the others are counted by `EmergencyReadRateLimiter` in
the process.  What Redis answers is any decision.  Times are those of the monotonic clock, and exact.
-/

namespace CountyFlow.Security

open CountyFlow.Lib Function

inductive OperationClass where
  | dispatchSubmit
  | runtimeOverride
  | memoryMutation
  | observabilityRead
  | wsTicket
  | authenticationInvalid
  deriving DecidableEq, Repr

def OperationClass.value : OperationClass → String
  | .dispatchSubmit => "dispatch_submit"
  | .runtimeOverride => "runtime_override"
  | .memoryMutation => "memory_mutation"
  | .observabilityRead => "observability_read"
  | .wsTicket => "ws_ticket"
  | .authenticationInvalid => "authentication_invalid"

def highRiskOperations : List OperationClass :=
  [.dispatchSubmit, .runtimeOverride, .memoryMutation, .wsTicket]

/-- `EmergencyReadRateLimiter`, as `__init__` lets it through. -/
structure EmergencyReadRateLimiter where
  capacity : ℕ
  windowSeconds : ℕ
  capacity_pos : 0 < capacity
  window_pos : 0 < windowSeconds

/-- `_entries`. -/
abbrev Entries := String → Option (FixedWindow ℚ)

def emergencyKey (subjectId : String) (operation : OperationClass) : String :=
  subjectId ++ ":" ++ operation.value

/-- `retry_after`, in a window. -/
def EmergencyReadRateLimiter.retryAfter (limiter : EmergencyReadRateLimiter) (now : ℚ)
    (window : FixedWindow ℚ) : ℤ :=
  max 1 ⌈(limiter.windowSeconds : ℚ) - (now - window.started)⌉

def EmergencyReadRateLimiter.admit (limiter : EmergencyReadRateLimiter) (subjectId : String)
    (operation : OperationClass) (now : ℚ) (entries : Entries) : RateLimitDecision × Entries :=
  let key := emergencyKey subjectId operation
  let (allowed, window) := FixedWindow.draw limiter.capacity (limiter.windowSeconds : ℚ) now (entries key)
  ({ allowed := allowed
     remaining := max 0 (limiter.capacity - window.count)
     retryAfterSeconds := if allowed then 0 else limiter.retryAfter now window
     resetAfterSeconds := limiter.retryAfter now window }, update entries key (some window))

structure SecurityHttpError where
  status : ℕ
  code : String
  message : String
  headers : List (String × String) := []
  deriving DecidableEq, Repr

structure RateLimitAdmission where
  policies : OperationClass → RateLimitPolicy
  emergencyReads : EmergencyReadRateLimiter

/-- A call of `check`, with what the limiter in Redis answers, `none` when it is unavailable. -/
structure Check where
  subjectId : String
  operation : OperationClass
  decision : Option RateLimitDecision
  now : ℚ
  deriving DecidableEq, Repr

namespace RateLimitAdmission

variable (service : RateLimitAdmission)

def answer (operation : OperationClass) (decision : RateLimitDecision) :
    Except SecurityHttpError RateLimitDecision :=
  if decision.allowed then .ok decision
  else .error
    { status := 429, code := "RATE_LIMIT_EXCEEDED", message := "The operation rate limit has been exceeded."
      headers :=
        [("Retry-After", toString (max 1 decision.retryAfterSeconds)),
          ("X-RateLimit-Limit", toString (service.policies operation).capacity),
          ("X-RateLimit-Remaining", toString decision.remaining),
          ("X-RateLimit-Reset", toString decision.resetAfterSeconds)] }

def check (c : Check) (entries : Entries) : Except SecurityHttpError RateLimitDecision × Entries :=
  match c.decision with
  | some decision => (service.answer c.operation decision, entries)
  | none =>
    if c.operation ∈ highRiskOperations then
      (.error
        { status := 503, code := "SECURITY_CONTROL_UNAVAILABLE"
          message := "Security admission is temporarily unavailable." }, entries)
    else
      let (decision, entries) := service.emergencyReads.admit c.subjectId c.operation c.now entries
      (service.answer c.operation decision, entries)

/-- The answers to calls one after the other. -/
def answers : Entries → List Check → List (Check × Except SecurityHttpError RateLimitDecision)
  | _, [] => []
  | entries, c :: calls => (c, (service.check c entries).1) :: answers (service.check c entries).2 calls

/-- The entries that calls leave. -/
def after : Entries → List Check → Entries
  | entries, [] => entries
  | entries, c :: calls => after (service.check c entries).2 calls

end RateLimitAdmission

/-! ### Keys -/

theorem not_mem_value (operation : OperationClass) : ∀ c ∈ operation.value.toList,
    decide (c ≠ ':') = true := by
  refine List.all_eq_true.mp ?_
  cases operation <;> decide +kernel

variable {a b : OperationClass}

theorem value_injective (h : a.value = b.value) : a = b := by
  cases a <;> cases b <;> first | rfl | exact absurd h (by decide)

/-- **A key is of one subject and one operation**: behind its last colon is the operation. -/
theorem emergencyKey_eq {s t : String} (h : emergencyKey s a = emergencyKey t b) : s = t ∧ a = b := by
  have hlast : ∀ (s : String) (a : OperationClass),
      (emergencyKey s a).toList.reverse.takeWhile (· ≠ ':') = a.value.toList.reverse := by
    intro s a
    simp only [emergencyKey, String.toList_append, List.reverse_append, List.append_assoc]
    rw [List.takeWhile_append_of_pos fun c hc => not_mem_value a c (List.mem_reverse.mp hc)]
    simp
  have hab : a = b := by
    refine value_injective (String.toList_injective (List.reverse_injective ?_))
    rw [← hlast s a, h, hlast t b]
  rw [hab] at h
  exact ⟨String.append_left_inj _ |>.mp (String.append_left_inj _ |>.mp h), hab⟩

/-! ### Without Redis -/

/-- The call is of the subject and the operation, and finds Redis unavailable. -/
def Check.counted (c : Check) (subjectId : String) (operation : OperationClass) : Bool :=
  c.subjectId = subjectId ∧ c.operation = operation ∧ c.decision = none

namespace RateLimitAdmission

variable {service : RateLimitAdmission} {subjectId : String} {operation : OperationClass} {entries : Entries}
  {c : Check} {calls : List Check}

/-- How many of them are admitted in an interval. -/
def admitted (service : RateLimitAdmission) (entries : Entries) (calls : List Check) (subjectId : String)
    (operation : OperationClass) (first last : ℚ) : ℕ :=
  (service.answers entries calls).countP fun e =>
    e.1.counted subjectId operation && decide (first ≤ e.1.now ∧ e.1.now < last) && e.2.isOk

/-- The window of a counted call. -/
def drawn (service : RateLimitAdmission) (c : Check) (entries : Entries) : Bool × FixedWindow ℚ :=
  FixedWindow.draw service.emergencyReads.capacity (service.emergencyReads.windowSeconds : ℚ) c.now
    (entries (emergencyKey c.subjectId c.operation))

theorem isOk_answer (decision : RateLimitDecision) : (service.answer operation decision).isOk =
    decision.allowed := by
  unfold answer
  cases decision.allowed <;> rfl

theorem check_counted (hc : c.counted subjectId operation = true) (hop : operation ∉ highRiskOperations) :
    (service.check c entries).1.isOk = (service.drawn c entries).1 ∧
      (service.check c entries).2 (emergencyKey subjectId operation) = some (service.drawn c entries).2 := by
  obtain ⟨rfl, rfl, hnone⟩ := of_decide_eq_true hc
  simp only [check, hnone, if_neg hop, isOk_answer, EmergencyReadRateLimiter.admit, update_self]
  exact ⟨rfl, rfl⟩

theorem check_other (hc : c.counted subjectId operation = false) :
    (service.check c entries).2 (emergencyKey subjectId operation) =
    entries (emergencyKey subjectId operation) := by
  unfold check
  split
  · rfl
  · rename_i hnone
    split
    · rfl
    · refine update_of_ne (fun h => of_decide_eq_false hc ?_) _ _
      obtain ⟨hs, hop⟩ := emergencyKey_eq h
      exact ⟨hs.symm, hop.symm, hnone⟩

theorem after_other (h : ∀ x ∈ calls, x.counted subjectId operation = false) :
    service.after entries calls (emergencyKey subjectId operation) =
    entries (emergencyKey subjectId operation) := by
  induction calls generalizing entries with
  | nil => rfl
  | cons c calls ih =>
    obtain ⟨hc, hrest⟩ := List.forall_mem_cons.mp h
    exact (ih hrest).trans (check_other hc)

/-- The counted calls are the requests of one counter. -/
theorem admitted_eq (hop : operation ∉ highRiskOperations) (first last : ℚ) :
    service.admitted entries calls subjectId operation first last =
      TokenBucket.admittedIn (fun t => first ≤ t ∧ t < last)
        (FixedWindow.log service.emergencyReads.capacity (service.emergencyReads.windowSeconds : ℚ)
          (entries (emergencyKey subjectId operation))
          ((calls.filter (·.counted subjectId operation)).map Check.now)) := by
  induction calls generalizing entries with
  | nil => rfl
  | cons c calls ih =>
    rw [admitted, answers, List.countP_cons]
    by_cases hc : c.counted subjectId operation = true
    · have hok : (service.check c entries).1.isOk = (service.drawn c entries).1 := (check_counted hc hop).1
      have hentry : _ = some (service.drawn c entries).2 := (check_counted hc hop).2
      obtain ⟨rfl, rfl, -⟩ := of_decide_eq_true hc
      simp only [List.filter_cons, hc, if_true, List.map_cons, FixedWindow.admittedIn_log_cons, hok,
        Bool.true_and]
      rw [Nat.add_comm]
      refine congrArg₂ (· + ·) rfl ?_
      rw [← admitted, ih, hentry]
      rfl
    · have hother := Bool.eq_false_iff.mpr hc
      simp only [List.filter_cons, hother, Bool.false_and, Bool.false_eq_true, if_false, Nat.add_zero]
      rw [← admitted, ih, check_other hother]

theorem mem_answers {e : Check × Except SecurityHttpError RateLimitDecision}
    (h : e ∈ service.answers entries calls) :
    ∃ entries', e.2 = (service.check e.1 entries').1 := by
  induction calls generalizing entries with
  | nil => cases h
  | cons c calls ih =>
    rcases List.mem_cons.mp h with rfl | h
    · exact ⟨entries, rfl⟩
    · exact ih h

/-- **While Redis is unavailable** nothing of high risk is admitted, and of the calls of one subject and one
operation less is admitted in an interval of `n` windows than `n + 1` windows may hold, whatever the other
calls are. -/
theorem admitted_without_redis (service : RateLimitAdmission) {calls : List Check}
    (hsorted : (calls.map Check.now).Pairwise (· ≤ ·)) (subjectId : String) (operation : OperationClass)
    (first : ℚ) (n : ℕ) :
    (operation ∈ highRiskOperations → ∀ last,
      service.admitted (fun _ => none) calls subjectId operation first last = 0) ∧
      service.admitted (fun _ => none) calls subjectId operation first
        (first + n * (service.emergencyReads.windowSeconds : ℚ)) < (n + 1) *
        service.emergencyReads.capacity := by
  have hrisk : operation ∈ highRiskOperations →
      ∀ last, service.admitted (fun _ => none) calls subjectId operation first last = 0 := by
    refine fun hop last => List.countP_eq_zero.mpr fun e he hcounted => ?_
    obtain ⟨entries, hanswer⟩ := mem_answers he
    obtain ⟨hcounted, hok⟩ := Bool.and_eq_true_iff.mp hcounted
    obtain ⟨-, rfl, hnone⟩ := of_decide_eq_true (Bool.and_eq_true_iff.mp hcounted).1
    rw [hanswer, check, hnone] at hok
    simp only [if_pos hop] at hok
    cases hok
  refine ⟨hrisk, ?_⟩
  by_cases hop : operation ∈ highRiskOperations
  · rw [hrisk hop]
    exact Nat.mul_pos n.succ_pos service.emergencyReads.capacity_pos
  · rw [admitted_eq hop]
    refine FixedWindow.admitted_in_interval (Nat.cast_pos.mpr service.emergencyReads.window_pos)
      service.emergencyReads.capacity_pos (fun w hw => by cases hw) ?_
    exact hsorted.sublist (List.filter_sublist.map _)

def twoPerMinute : RateLimitAdmission := ⟨fun _ => onePerMinute, 2, 60, Nat.two_pos, Nat.succ_pos _⟩

def offline (now : ℚ) : Check := ⟨"user-1", .observabilityRead, none, now⟩

/-- The bound is met: the end of a window and the whole of the next one. -/
theorem admitted_without_redis_offline : ∃ k, k < (1 + 1) * 2 ∧ k + 1 = (1 + 1) * 2 ∧
    twoPerMinute.admitted (fun _ => none) ([0, 59, 60, 61].map offline) "user-1" .observabilityRead 2 62 =
    k := by
  have hsorted : (([0, 59, 60, 61].map offline).map Check.now).Pairwise (· ≤ ·) := by decide +kernel
  have hlast : (2 : ℚ) + (1 : ℕ) * (twoPerMinute.emergencyReads.windowSeconds : ℚ) = 62 := by decide +kernel
  have hbound := (admitted_without_redis twoPerMinute hsorted "user-1" .observabilityRead 2 1).2
  rw [hlast] at hbound
  exact ⟨_, hbound, by decide +kernel, rfl⟩

/-- **`Retry-After` is kept** while Redis is unavailable: a call that is refused and comes again after the
seconds it has been told is admitted, whatever the calls of other subjects and operations in between are. -/
theorem retry_after_is_kept {e : SecurityHttpError} (hop : operation ∉ highRiskOperations)
    (hc : c.counted subjectId operation = true) (hrefused : (service.check c entries).1 = .error e) :
    ∃ seconds : ℤ, ("Retry-After", toString seconds) ∈ e.headers ∧ ∀ more c',
      (∀ x ∈ more, x.counted subjectId operation = false) → c'.counted subjectId operation = true →
      c.now + seconds ≤ c'.now → (service.check c' (service.after entries (c :: more))).1.isOk = true := by
  have hok : (service.check c entries).1.isOk = (service.drawn c entries).1 := (check_counted hc hop).1
  have hentry : _ = some (service.drawn c entries).2 := (check_counted hc hop).2
  have hfull : (service.drawn c entries).1 = false := by
    rw [← hok, hrefused]
    rfl
  obtain ⟨rfl, rfl, hnone⟩ := of_decide_eq_true hc
  refine ⟨max 1 (service.emergencyReads.retryAfter c.now (service.drawn c entries).2), ?_,
    fun more c' hmore hc' hlater => ?_⟩
  · have hanswer : (service.check c entries).1 = service.answer c.operation
        ⟨(service.drawn c entries).1,
        max 0 (service.emergencyReads.capacity - (service.drawn c entries).2.count),
          if (service.drawn c entries).1 then 0
            else service.emergencyReads.retryAfter c.now (service.drawn c entries).2,
          service.emergencyReads.retryAfter c.now (service.drawn c entries).2⟩ := by
      simp only [check, hnone, if_neg hop]
      rfl
    rw [hanswer, hfull] at hrefused
    cases hrefused
    exact List.mem_cons_self
  · have hkept : service.after entries (c :: more) (emergencyKey c.subjectId c.operation) = some _ :=
      (after_other hmore).trans hentry
    rw [(check_counted hc' hop).1, drawn]
    obtain ⟨hs, hoperation, -⟩ := of_decide_eq_true hc'
    rw [hs, hoperation, hkept]
    refine FixedWindow.draw_again service.emergencyReads.capacity_pos ?_
    have hceil := Int.le_ceil
      ((service.emergencyReads.windowSeconds : ℚ) - (c.now - (service.drawn c entries).2.started))
    have hmax : (⌈(service.emergencyReads.windowSeconds : ℚ) -
      (c.now - (service.drawn c entries).2.started)⌉ : ℚ) ≤
        (max 1 (service.emergencyReads.retryAfter c.now (service.drawn c entries).2) : ℤ) :=
      Int.cast_le.mpr ((le_max_right _ _).trans (le_max_right _ _))
    linarith

theorem retry_after_is_kept_offline : ∃ e seconds,
    (twoPerMinute.check (offline 2) (twoPerMinute.after (fun _ => none) [offline 0, offline 1])).1 =
    .error e ∧
      ("Retry-After", toString (seconds : ℤ)) ∈ e.headers ∧
      (twoPerMinute.check (offline (2 + seconds))
        (twoPerMinute.after (fun _ => none) [offline 0, offline 1, offline 2])).1.isOk = true := by
  have hfull : (twoPerMinute.check (offline 2)
    (twoPerMinute.after (fun _ => none) [offline 0, offline 1])).1.isOk =
      false := by
    decide +kernel
  cases h : (twoPerMinute.check (offline 2)
    (twoPerMinute.after (fun _ => none) [offline 0, offline 1])).1 with
  | ok decision =>
    rw [h] at hfull
    cases hfull
  | error e =>
    have hc : (offline 2).counted "user-1" .observabilityRead = true := rfl
    obtain ⟨seconds, hheader, hagain⟩ := retry_after_is_kept (by decide) hc h
    exact ⟨e, seconds, rfl, hheader, hagain [] _ (fun x hx => by cases hx) rfl (le_refl _)⟩

end RateLimitAdmission

end CountyFlow.Security
