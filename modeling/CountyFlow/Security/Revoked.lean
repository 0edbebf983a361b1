import Mathlib.Algebra.Order.Ring.Int
import Mathlib.Logic.Equiv.Basic
import CountyFlow.Security.Revocation

/-!
# Tokens that have been revoked

Calls of `revoke` and `authenticate` on one store, at any times that do not decrease.  A call of `revoke`
is that of the logout of a request: its principal is the one that a token had when it was seen.
-/

namespace CountyFlow.Security

open CountyFlow.Lib

/-- The markers, the time, and the principals whose `revoke` has returned. -/
structure Revocations where
  markers : Markers
  clock : ℤ
  revoked : List AuthenticatedPrincipal

inductive AuthAction (τ κ : Type) where
  | revoke (resolver : SigningKeyResolver κ) (token : τ) (seen now : ℤ) (reply : RedisReply)
  | authenticate (resolver : SigningKeyResolver κ) (token : τ) (now : ℤ) (reply : RedisReply)

variable {s s' : Revocations} {p : AuthenticatedPrincipal} {markers : Markers} {now : ℤ}

namespace Revocations

variable {τ κ : Type} {provider : Provider} {jwt : Jwt τ κ} {store : RedisRevocationStore}

def initial (clock : ℤ) : Revocations := ⟨.empty, clock, []⟩

/-- The state after a call, `none` when the time goes back or the token to revoke stands for nobody. -/
def step (provider : Provider) (jwt : Jwt τ κ) (store : RedisRevocationStore) (s : Revocations) :
    AuthAction τ κ → Option Revocations
  | .revoke resolver token seen now reply =>
    if s.clock ≤ now then
      match provider.verified jwt resolver token seen with
      | .error _ => none
      | .ok principal =>
        match store.revoke s.markers principal.jti.value principal.expiresAt now reply with
        | (.ok (), markers) => some ⟨markers, now, principal :: s.revoked⟩
        | (.error _, markers) => some ⟨markers, now, s.revoked⟩
    else none
  | .authenticate _ _ now _ => if s.clock ≤ now then some { s with clock := now } else none

/-- **The revoked tokens are refused**: from now on no call of `authenticate` returns a principal with the
identity of a revoked one. -/
def Refused (provider : Provider) (jwt : Jwt τ κ) (store : RedisRevocationStore) (s : Revocations) : Prop :=
  ∀ p ∈ s.revoked, ∀ resolver token now reply q, s.clock ≤ now →
    provider.authenticate jwt store resolver s.markers token now reply = .ok q → q.jti ≠ p.jti

/-- **The condition**: a call of `revoke` that returns is one without leeway, or one that comes when the
token is no longer accepted. -/
def InTime (provider : Provider) (jwt : Jwt τ κ) (_ : Revocations) : AuthAction τ κ → Prop
  | .revoke resolver token seen now reply =>
    ∀ p, provider.verified jwt resolver token seen = .ok p → reply = .done ∨ p.expiresAt ≤ now →
      provider.leewaySeconds ≤ 0 ∨ p.expiresAt + provider.leewaySeconds * second ≤ now
  | .authenticate _ _ _ _ => True

/-! ### What a step does -/

def Issued (provider : Provider) (jwt : Jwt τ κ) (p : AuthenticatedPrincipal) : Prop :=
  ∃ resolver token seen, provider.verified jwt resolver token seen = .ok p

/-- A marker until a time at which the call computes it, or none. -/
def mark (store : RedisRevocationStore) (markers : Markers) (p : AuthenticatedPrincipal) (now : ℤ) :
    Markers :=
  markers.set (store.key p.jti.value) () (now + remainingSeconds p.expiresAt now * second)

/-- **Every step**: the clock moves, and a token is marked before its expiry, or is not; it is revoked when
it is marked or has expired. -/
inductive Moves (provider : Provider) (jwt : Jwt τ κ) (store : RedisRevocationStore) (s : Revocations)
    (a : AuthAction τ κ) : Revocations → Prop
  | waited {now : ℤ} : s.clock ≤ now → (∀ s', InTime provider jwt s' a) →
      Moves provider jwt store s a { s with clock := now }
  | marked {now : ℤ} {p : AuthenticatedPrincipal} : s.clock ≤ now → Issued provider jwt p →
      now < p.expiresAt → (∀ s', InTime provider jwt s' a) →
      Moves provider jwt store s a ⟨mark store s.markers p now, now, s.revoked⟩
  | revoked {now : ℤ} {p : AuthenticatedPrincipal} : s.clock ≤ now → Issued provider jwt p →
      (∀ s', InTime provider jwt s' a ↔
        (provider.leewaySeconds ≤ 0 ∨ p.expiresAt + provider.leewaySeconds * second ≤ now)) →
      Moves provider jwt store s a
        ⟨if now < p.expiresAt then mark store s.markers p now else s.markers, now, p :: s.revoked⟩

variable {a : AuthAction τ κ}

/-- All that an action of the provider can do. -/
theorem step_moves (h : step provider jwt store s a = some s') : Moves provider jwt store s a s' := by
  cases a with
  | authenticate resolver token now reply =>
    simp only [step] at h
    split at h
    · rename_i hclock
      cases h
      exact .waited hclock fun _ => trivial
    · cases h
  | revoke resolver token seen now reply =>
    simp only [step] at h
    split at h
    · rename_i hclock
      cases hp : provider.verified jwt resolver token seen with
      | error e =>
        rw [hp] at h
        cases h
      | ok p =>
        have hissued : Issued provider jwt p := ⟨resolver, token, seen, hp⟩
        have hintime (hreturns : reply = .done ∨ p.expiresAt ≤ now) (s'' : Revocations) :
            InTime provider jwt s'' (.revoke resolver token seen now reply) ↔
              (provider.leewaySeconds ≤ 0 ∨ p.expiresAt + provider.leewaySeconds * second ≤ now) := by
          simp [InTime, hp, hreturns]
        have hnot (hreturns : ¬ (reply = .done ∨ p.expiresAt ≤ now)) (s'' : Revocations) :
            InTime provider jwt s'' (.revoke resolver token seen now reply) := by
          intro q hq hreturns'
          obtain rfl := Except.ok.inj (hp.symm.trans hq)
          exact absurd hreturns' hreturns
        simp only [hp, RedisRevocationStore.revoke] at h
        by_cases hexpired : now < p.expiresAt
        · have hpos : ¬ remainingSeconds p.expiresAt now ≤ 0 := by
            have := remainingSeconds_pos.mpr hexpired
            omega
          rw [if_neg hpos] at h
          cases reply with
          | done =>
            cases h
            have hmoves : Moves provider jwt store s _ _ := .revoked hclock hissued (hintime (.inl rfl))
            rwa [if_pos hexpired] at hmoves
          | failed =>
            cases h
            exact .waited hclock (hnot (by simp; omega))
          | lost =>
            cases h
            exact .marked hclock hissued hexpired (hnot (by simp; omega))
        · have hpos : remainingSeconds p.expiresAt now ≤ 0 := by
            exact not_lt.mp (mt remainingSeconds_pos.mp hexpired)
          rw [if_pos hpos] at h
          cases h
          have hmoves : Moves provider jwt store s _ _ :=
            .revoked hclock hissued (hintime (.inr (by omega)))
          rwa [if_neg hexpired] at hmoves
    · cases h

/-! ### The markers -/

/-- **The markers**: the marker of a token lives until its expiry and less than a second longer, and a
revoked token has one or has expired. -/
structure Marked (provider : Provider) (jwt : Jwt τ κ) (store : RedisRevocationStore) (s : Revocations) :
    Prop where
  bounds : ∀ q, Issued provider jwt q → ∀ deadline,
    s.markers (store.key q.jti.value) = some ((), deadline) →
      q.expiresAt ≤ deadline ∧ deadline < q.expiresAt + second
  issued : ∀ p ∈ s.revoked, Issued provider jwt p
  marked : ∀ p ∈ s.revoked, p.expiresAt ≤ s.clock ∨
    ∃ deadline, s.markers (store.key p.jti.value) = some ((), deadline)

theorem initial_marked (clock : ℤ) : Marked provider jwt store (initial clock) :=
  ⟨fun _ _ _ h => (Option.some_ne_none _ h.symm).elim, fun _ h => (List.not_mem_nil h).elim,
    fun _ h => (List.not_mem_nil h).elim⟩

theorem mark_bounds (hr : Relies jwt store.digest) (hs : Marked provider jwt store s)
    (hp : Issued provider jwt p) (now : ℤ) (q : AuthenticatedPrincipal) (hq : Issued provider jwt q)
    (deadline : ℤ) (h : mark store s.markers p now (store.key q.jti.value) = some ((), deadline)) :
    q.expiresAt ≤ deadline ∧ deadline < q.expiresAt + second := by
  unfold mark at h
  rw [Expiring.set_apply] at h
  by_cases hkey : store.key q.jti.value = store.key p.jti.value
  · rw [if_pos hkey, Option.some.injEq, Prod.mk.injEq] at h
    obtain ⟨-, rfl⟩ := h
    obtain ⟨resolver, token, seen, hp⟩ := hp
    obtain ⟨resolver', token', seen', hq⟩ := hq
    have hexpire := Provider.expire_together hr hq hp (RedisRevocationStore.key_injective hr hkey)
    rw [hexpire]
    exact markedUntil_bounds p.expiresAt now
  · rw [if_neg hkey] at h
    exact hs.bounds q hq deadline h

theorem mark_self : ∃ deadline, mark store markers p now (store.key p.jti.value) = some ((), deadline) := by
  unfold mark
  exact ⟨_, by rw [Expiring.set_apply, if_pos rfl]⟩

theorem mark_marked {k : String} (h : ∃ deadline, markers k = some ((), deadline)) :
    ∃ deadline, mark store markers p now k = some ((), deadline) := by
  obtain ⟨deadline, h⟩ := h
  unfold mark
  rw [Expiring.set_apply]
  by_cases hkey : k = store.key p.jti.value
  · exact ⟨_, if_pos hkey⟩
  · exact ⟨deadline, by rw [if_neg hkey, h]⟩

/-- The markers stay with the tokens that are revoked. -/
theorem step_marked (hr : Relies jwt store.digest) (hs : Marked provider jwt store s)
    (h : step provider jwt store s a = some s') : Marked provider jwt store s' := by
  have hold {now : ℤ} (hclock : s.clock ≤ now) {markers : Markers}
      (hkeeps : ∀ k, (∃ deadline, s.markers k = some ((), deadline)) →
        ∃ deadline, markers k = some ((), deadline))
      (p : AuthenticatedPrincipal) (hp : p ∈ s.revoked) :
      p.expiresAt ≤ now ∨ ∃ deadline, markers (store.key p.jti.value) = some ((), deadline) :=
    (hs.marked p hp).imp (fun hle => hle.trans hclock) (hkeeps _)
  cases step_moves h with
  | waited hclock _ => exact ⟨hs.bounds, hs.issued, hold hclock fun _ h => h⟩
  | marked hclock hissued _ _ =>
    exact ⟨mark_bounds hr hs hissued _, hs.issued, hold hclock fun _ h => mark_marked h⟩
  | @revoked now p hclock hissued _ =>
    by_cases hexpired : now < p.expiresAt
    · simp only [hexpired, if_true]
      refine ⟨mark_bounds hr hs hissued _, ?_, ?_⟩
      · simpa [hissued] using hs.issued
      · intro q hq
        rcases List.mem_cons.mp hq with rfl | hq
        · exact .inr mark_self
        · exact hold hclock (fun _ h => mark_marked h) q hq
    · simp only [hexpired, if_false]
      refine ⟨hs.bounds, ?_, ?_⟩
      · simpa [hissued] using hs.issued
      · intro q hq
        rcases List.mem_cons.mp hq with rfl | hq
        · exact .inl (not_lt.mp hexpired)
        · exact hold hclock (fun _ h => h) q hq

/-! ### Refusal -/

/-- The revoked are refused exactly if the leeway of each is over, or there is none. -/
theorem refused_iff (hr : Relies jwt store.digest) (hs : Marked provider jwt store s) :
    Refused provider jwt store s ↔ ∀ p ∈ s.revoked,
      provider.leewaySeconds ≤ 0 ∨ p.expiresAt + provider.leewaySeconds * second ≤ s.clock := by
  constructor
  · intro hrefused p hp
    by_contra hlong
    obtain ⟨hleeway, hclock⟩ := not_or.mp hlong
    obtain ⟨resolver, token, seen, hverified⟩ := hs.issued p hp
    have hseen := Provider.before_of_verified hr hverified
    -- a time after the marker at which the token is still accepted
    obtain ⟨now, hnow, hseen_now, hlater, hfree⟩ : ∃ now, s.clock ≤ now ∧ seen ≤ now ∧
        now < p.expiresAt + provider.leewaySeconds * second ∧
        s.markers.get now (store.key p.jti.value) = none := by
      cases hmarker : s.markers (store.key p.jti.value) with
      | none =>
        refine ⟨max s.clock seen, le_max_left _ _, le_max_right _ _, max_lt (by omega) hseen, ?_⟩
        simp [Expiring.get, hmarker]
      | some entry =>
        obtain ⟨⟨⟩, deadline⟩ := entry
        have hbounds := (hs.bounds p (hs.issued p hp) deadline hmarker).2
        have hdeadline : deadline < p.expiresAt + provider.leewaySeconds * second := by
          unfold second at *
          omega
        refine ⟨max deadline (max s.clock seen), ?_, ?_, max_lt hdeadline (max_lt (by omega) hseen), ?_⟩
        · exact (le_max_left _ _).trans (le_max_right _ _)
        · exact (le_max_right _ _).trans (le_max_right _ _)
        · simp [Expiring.get, hmarker]
    have haccepted : provider.authenticate jwt store resolver s.markers token now .done = .ok p :=
      Provider.authenticate_ok.mpr ⟨Provider.verified_until hr hverified hseen_now hlater, rfl, hfree⟩
    exact hrefused p hp resolver token now .done p hnow haccepted rfl
  · intro hcond p hp resolver token now reply q hnow haccepted hjti
    obtain ⟨hverified, -, hfree⟩ := Provider.authenticate_ok.mp haccepted
    obtain ⟨resolver', token', seen, hissued⟩ := hs.issued p hp
    have hexpire : q.expiresAt = p.expiresAt :=
      Provider.expire_together hr hverified hissued (congrArg Text.value hjti)
    have hbefore := Provider.before_of_verified hr hverified
    rw [hexpire] at hbefore
    rcases hcond p hp with hleeway | hlate
    · have hunexpired : now < p.expiresAt := by
        unfold second at hbefore
        omega
      rcases hs.marked p hp with hexpired | ⟨deadline, hmarker⟩
      · omega
      · have hbounds := (hs.bounds p (hs.issued p hp) deadline hmarker).1
        have halive : s.markers.get now (store.key q.jti.value) = some () := by
          rw [hjti]
          exact Expiring.get_eq_some.mpr ⟨deadline, hmarker, by omega⟩
        rw [halive] at hfree
        cases hfree
    · omega

theorem step_refused (hr : Relies jwt store.digest) (hs : Marked provider jwt store s)
    (hrefused : Refused provider jwt store s) (h : step provider jwt store s a = some s') :
    InTime provider jwt s a ↔ Refused provider jwt store s' := by
  have hmarked' := step_marked hr hs h
  rw [refused_iff hr hmarked']
  have hold := (refused_iff hr hs).mp hrefused
  have hlater {now : ℤ} (hclock : s.clock ≤ now) (p : AuthenticatedPrincipal) (hp : p ∈ s.revoked) :
      provider.leewaySeconds ≤ 0 ∨ p.expiresAt + provider.leewaySeconds * second ≤ now :=
    (hold p hp).imp id fun hle => hle.trans hclock
  cases step_moves h with
  | waited hclock hintime => exact ⟨fun _ => hlater hclock, fun _ => hintime s⟩
  | marked hclock _ _ hintime => exact ⟨fun _ => hlater hclock, fun _ => hintime s⟩
  | @revoked now p hclock _ hintime =>
    rw [hintime s]
    constructor
    · intro hcond q hq
      rcases List.mem_cons.mp hq with rfl | hq
      · exact hcond
      · exact hlater hclock q hq
    · intro hall
      exact hall p List.mem_cons_self

/-- **A revoked token is never accepted again exactly in the runs whose every `revoke` is without leeway or
comes after the leeway.** -/
theorem revoked_refused_iff (hr : Relies jwt store.digest) {clock : ℤ} {s : Revocations}
    {run : List (AuthAction τ κ)} (hrun : exec (step provider jwt store) (initial clock) run = some s) :
    Meets (step provider jwt store) (InTime provider jwt) (initial clock) run ↔
      ∀ pre m, pre <+: run → exec (step provider jwt store) (initial clock) pre = some m →
        Refused provider jwt store m := by
  apply meets_iff_throughout (I := Marked provider jwt store) _ _ hrun (initial_marked clock)
  · exact (refused_iff hr (initial_marked clock)).mpr fun p hp => by cases hp
  · exact fun _ _ _ hs h => step_marked hr hs h
  · exact fun _ _ _ hs hrefused h => step_refused hr hs hrefused h

/-! ### A token with a leeway -/

/-- The claims of a token that expires at 100 seconds. -/
def sessionClaims : Claims :=
  ⟨"dev-auditor", none, some (.list [.str "AUDITOR"]), 0, 100 * second, "session-1"⟩

/-- A library that knows one token. -/
def sessionJwt : Jwt Unit Unit where
  getUnverifiedHeader _ := .error .other
  decode _ _ options now :=
    if now < sessionClaims.exp + options.leeway * second then .ok sessionClaims
    else .error .expiredSignature

/-- A digest that is right about the identity of that token. -/
def sessionStore : RedisRevocationStore where
  namespace_ := "countyflow:auth:revoked"
  digest := Equiv.swap "session-1"
    "84097828fc31a8c8d29210df48901a85de7fd013f686b17be77d1be29cb7a98b"

theorem sessionJwt_relies : Relies sessionJwt sessionStore.digest := by
  have hdecode {token key options now c} (h : sessionJwt.decode token key options now = .ok c) :
      now < sessionClaims.exp + options.leeway * second ∧ c = sessionClaims := by
    simp only [sessionJwt] at h
    split at h
    · rename_i hnow
      exact ⟨hnow, (Except.ok.inj h).symm⟩
    · cases h
  refine ⟨?_, ?_, ?_, (Equiv.swap _ _).injective⟩
  · intro token key options now c h
    obtain ⟨hnow, rfl⟩ := hdecode h
    exact hnow
  · intro token key options now later c h _ hlater
    obtain ⟨-, rfl⟩ := hdecode h
    simp [sessionJwt, hlater]
  · intro token token' key key' options options' now now' c c' h h' _
    rw [(hdecode h).2, (hdecode h').2]

def sessionProvider (leewaySeconds : ℤ) : Provider :=
  .development ⟨"development-secret-of-32-characters", by decide, "countyflow", "countyflow-api",
    leewaySeconds⟩

def noResolver : SigningKeyResolver Unit := fun _ _ => .error .tokenInvalid

/-- The token is revoked forty seconds before it expires. -/
def revokeSession : List (AuthAction Unit Unit) :=
  [.revoke noResolver () (10 * second) (60 * second) .done]

theorem revoked_refused_iff_without_leeway :
    ∃ s, exec (step (sessionProvider 0) sessionJwt sessionStore) (initial 0) revokeSession = some s ∧
      s.revoked.length = 1 ∧ Refused (sessionProvider 0) sessionJwt sessionStore s := by
  have hmap : (exec (step (sessionProvider 0) sessionJwt sessionStore) (initial 0) revokeSession).map
      (fun s => s.revoked.length) = some 1 := by decide +kernel
  obtain ⟨s, hrun, hlength⟩ := Option.map_eq_some_iff.mp hmap
  refine ⟨s, hrun, hlength, (revoked_refused_iff sessionJwt_relies hrun).mp ?_ _ s
    (List.prefix_refl _) hrun⟩
  exact ⟨fun _ _ _ => .inl (le_refl 0), fun _ _ => trivial⟩

/-- **With a leeway of thirty seconds the token is accepted again**, ten seconds after its expiry. -/
theorem revoked_token_accepted : Relies sessionJwt sessionStore.digest ∧
    ∃ s p, exec (step (sessionProvider 30) sessionJwt sessionStore) (initial 0) revokeSession = some s ∧
      s.revoked = [p] ∧
      (sessionProvider 30).authenticate sessionJwt sessionStore noResolver s.markers () (110 * second)
        .done = .ok p := by
  refine ⟨sessionJwt_relies, ?_⟩
  have hmap : (exec (step (sessionProvider 30) sessionJwt sessionStore) (initial 0) revokeSession).map
      (fun s => (s.revoked.map Except.ok,
        (sessionProvider 30).authenticate sessionJwt sessionStore noResolver s.markers ()
          (110 * second) .done)) =
      some ([(sessionProvider 30).verified sessionJwt noResolver () (10 * second)],
        (sessionProvider 30).verified sessionJwt noResolver () (10 * second)) := by decide +kernel
  obtain ⟨s, hrun, hs⟩ := Option.map_eq_some_iff.mp hmap
  obtain ⟨hrevoked, haccepted⟩ := Prod.mk.inj hs
  cases hlist : s.revoked with
  | nil => simp [hlist] at hrevoked
  | cons p rest =>
    simp only [hlist, List.map_cons, List.cons.injEq, List.map_eq_nil_iff] at hrevoked
    obtain ⟨hp, rfl⟩ := hrevoked
    exact ⟨s, p, hrun, hlist, haccepted.trans hp.symm⟩

end Revocations

end CountyFlow.Security
