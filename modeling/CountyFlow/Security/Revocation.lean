import CountyFlow.Lib.Expiring
import CountyFlow.Lib.Runs
import CountyFlow.Security.Principal

/-!
# Authentication and revocation

`RedisRevocationStore` of `app/security/revocation.py` and the two providers of
`app/security/jwt_provider.py`.  A time is in microseconds.  What PyJWT, `hashlib` and the key set of
the issuer answer are parameters; a Redis command either is done, or fails, or is done and its reply
is lost.
-/

namespace CountyFlow.Security

open CountyFlow.Core CountyFlow.Lib

def second : ℤ := 1000000

/-! ### The revocation store -/

/-- How a command to Redis ends. -/
inductive RedisReply where
  | done | failed | lost
  deriving DecidableEq, Repr

/-- The exceptions of an authentication; `valueError` is what `AuthenticatedPrincipal` raises. -/
inductive AuthError where
  | tokenInvalid | tokenExpired | tokenRevoked | unavailable
  | valueError (message : String)
  deriving DecidableEq, Repr

abbrev Markers := Expiring String Unit

/-- `math.ceil((expires_at - now).total_seconds())`. -/
def remainingSeconds (expiresAt now : ℤ) : ℤ := -((now - expiresAt) / second)

/-- The hexadecimal digest of a text, `hashlib.sha256(text.encode()).hexdigest()`. -/
abbrev Digest := String → String

/-- `RedisRevocationStore`, without its client. -/
structure RedisRevocationStore where
  namespace_ : String
  digest : Digest

namespace RedisRevocationStore

def key (store : RedisRevocationStore) (jti : String) : String :=
  store.namespace_ ++ ":" ++ store.digest jti

def revoke (store : RedisRevocationStore) (markers : Markers) (jti : String) (expiresAt now : ℤ)
    (reply : RedisReply) : Except AuthError Unit × Markers :=
  let remaining := remainingSeconds expiresAt now
  if remaining ≤ 0 then (.ok (), markers)
  else
    let marked := markers.set (store.key jti) () (now + remaining * second)
    match reply with
    | .done => (.ok (), marked)
    | .failed => (.error .unavailable, markers)
    | .lost => (.error .unavailable, marked)

def isRevoked (store : RedisRevocationStore) (markers : Markers) (now : ℤ) (reply : RedisReply)
    (jti : String) : Except AuthError Bool :=
  match reply with
  | .done => .ok (markers.get now (store.key jti)).isSome
  | .failed | .lost => .error .unavailable

end RedisRevocationStore

/-! ### The providers -/

/-- The claims of a token as `_principal` reads them: texts through `str`, times through
`datetime.fromtimestamp`. -/
structure Claims where
  sub : String
  name : Option String
  roles : Option Value
  iat : ℤ
  exp : ℤ
  jti : String
  deriving DecidableEq

/-- What `jwt.decode` raises. -/
inductive JwtError where
  | expiredSignature | other
  deriving DecidableEq, Repr

/-- The key a token is verified with. -/
inductive SigningKey (κ : Type) where
  | secret (secret : String)
  | published (key : κ)

/-- The arguments of `jwt.decode` besides the token and the key. -/
structure DecodeOptions where
  algorithms : List String
  audience : String
  issuer : String
  leeway : ℤ
  deriving DecidableEq, Repr

/-- PyJWT: the header (`alg` and `kid`, where they are texts), and the claims of a token at a time. -/
structure Jwt (τ κ : Type) where
  getUnverifiedHeader : τ → Except JwtError (Option String × Option String)
  decode : τ → SigningKey κ → DecodeOptions → ℤ → Except JwtError Claims

/-- The texts of a list, `none` when it holds anything else. -/
def textsOf (values : List Value) : Option (List String) :=
  values.mapM fun
    | .str s => some s
    | _ => none

/-- `_principal`. -/
def principalOf (claims : Claims) (authMethod : AuthMethod) : Except AuthError AuthenticatedPrincipal :=
  match claims.roles with
  | some (.list values) =>
    match textsOf values with
    | none => .error .tokenInvalid
    | some names =>
      let roles := names.filterMap Role.ofValue
      if roles = [] then .error .tokenInvalid
      else
        let displayName := match claims.name with
          | some name => if name = "" then claims.sub else name
          | none => claims.sub
        (AuthenticatedPrincipal.make claims.sub displayName roles (permissionsForRoles names)
          authMethod claims.iat claims.exp claims.jti).mapError .valueError
  | _ => .error .tokenInvalid

variable {principal : AuthenticatedPrincipal}

/-- The principal of a verified token has a role. -/
theorem principalOf_ok {claims : Claims} {authMethod : AuthMethod}
    (h : principalOf claims authMethod = .ok principal) :
    principal.roles ≠ [] ∧ principal.expiresAt = claims.exp ∧
      principal.jti.value = Worker.Db.strip claims.jti := by
  unfold principalOf at h
  split at h
  · split at h
    · cases h
    · dsimp only at h
      split at h
      · cases h
      · rename_i hsome
        generalize hmake : AuthenticatedPrincipal.make _ _ _ _ _ _ _ _ = made at h
        cases made with
        | error e => cases h
        | ok made =>
          cases h
          obtain ⟨hroles, hexpires, hjti⟩ := AuthenticatedPrincipal.make_ok hmake
          rw [hroles]
          exact ⟨hsome, hexpires, hjti⟩
  · cases h

/-- `DevelopmentJwtProvider`, without its revocation store. -/
structure DevelopmentJwtProvider where
  secret : String
  long : 32 ≤ secret.length
  issuer : String
  audience : String
  leewaySeconds : ℤ

/-- `OidcJwtProvider`, without its key resolver and its revocation store. -/
structure OidcJwtProvider where
  issuer : String
  audience : String
  algorithms : List String
  allowlisted : algorithms ≠ [] ∧ ∀ algorithm ∈ algorithms, algorithm ∈ ["RS256", "ES256"]
  leewaySeconds : ℤ

/-- What a `SigningKeyResolver` answers for a `kid` and an algorithm. -/
abbrev SigningKeyResolver (κ : Type) := String → String → Except AuthError κ

variable {store : RedisRevocationStore}

section Providers

variable {τ κ : Type}

/-- How a provider reports what `jwt.decode` raises. -/
def JwtError.reported : JwtError → AuthError
  | .expiredSignature => .tokenExpired
  | .other => .tokenInvalid

/-- The claims that `DevelopmentJwtProvider.authenticate` reads from a token. -/
def DevelopmentJwtProvider.claims (provider : DevelopmentJwtProvider) (jwt : Jwt τ κ) (token : τ)
    (now : ℤ) : Except AuthError Claims :=
  (jwt.decode token (.secret provider.secret)
    ⟨["HS256"], provider.audience, provider.issuer, provider.leewaySeconds⟩ now).mapError
      JwtError.reported

/-- The claims that `OidcJwtProvider.authenticate` reads from a token. -/
def OidcJwtProvider.claims (provider : OidcJwtProvider) (jwt : Jwt τ κ)
    (resolver : SigningKeyResolver κ) (token : τ) (now : ℤ) : Except AuthError Claims :=
  match jwt.getUnverifiedHeader token with
  | .error e => .error e.reported
  | .ok (some algorithm, some kid) =>
    if algorithm ∉ provider.algorithms ∨ Worker.Db.strip kid = "" then .error .tokenInvalid
    else
      match resolver kid algorithm with
      | .error e => .error e
      | .ok key =>
        (jwt.decode token (.published key)
          ⟨provider.algorithms, provider.audience, provider.issuer, provider.leewaySeconds⟩
          now).mapError JwtError.reported
  | .ok _ => .error .tokenInvalid

/-- What both providers do with the claims. -/
def admission (claims : Except AuthError Claims) (authMethod : AuthMethod)
    (isRevoked : String → Except AuthError Bool) : Except AuthError AuthenticatedPrincipal :=
  match claims with
  | .error e => .error e
  | .ok claims =>
    match principalOf claims authMethod with
    | .error (.valueError _) => .error .tokenInvalid
    | .error e => .error e
    | .ok principal =>
      match isRevoked principal.jti.value with
      | .error e => .error e
      | .ok true => .error .tokenRevoked
      | .ok false => .ok principal

theorem admit_ok {claims : Except AuthError Claims} {authMethod : AuthMethod}
    {isRevoked : String → Except AuthError Bool} :
    admission claims authMethod isRevoked = .ok principal ↔
      (∃ c, claims = .ok c ∧ principalOf c authMethod = .ok principal) ∧
        isRevoked principal.jti.value = .ok false := by
  cases claims with
  | error e => simp [admission]
  | ok c =>
    cases hprincipal : principalOf c authMethod with
    | error e => cases e <;> simp [admission, hprincipal]
    | ok p =>
      cases hrevoked : isRevoked p.jti.value with
      | error e =>
        simp only [admission, hprincipal, hrevoked, Except.ok.injEq, exists_eq_left']
        constructor
        · intro h
          cases h
        · rintro ⟨rfl, h⟩
          rw [hrevoked] at h
          cases h
      | ok revoked =>
        cases revoked <;>
          simp only [admission, hprincipal, hrevoked, Except.ok.injEq, exists_eq_left']
        · constructor
          · rintro rfl
            exact ⟨rfl, hrevoked⟩
          · intro h
            exact h.1
        · constructor
          · intro h
            cases h
          · rintro ⟨rfl, h⟩
            rw [hrevoked] at h
            cases h

/-- The provider an application is configured with. -/
inductive Provider where
  | development (provider : DevelopmentJwtProvider)
  | oidc (provider : OidcJwtProvider)

namespace Provider

def leewaySeconds : Provider → ℤ
  | .development provider => provider.leewaySeconds
  | .oidc provider => provider.leewaySeconds

def authMethod : Provider → AuthMethod
  | .development _ => .developmentJwt
  | .oidc _ => .oidcJwt

def claims (provider : Provider) (jwt : Jwt τ κ) (resolver : SigningKeyResolver κ) (token : τ)
    (now : ℤ) : Except AuthError Claims :=
  match provider with
  | .development provider => provider.claims jwt token now
  | .oidc provider => provider.claims jwt resolver token now

def authenticate (provider : Provider) (jwt : Jwt τ κ) (store : RedisRevocationStore)
    (resolver : SigningKeyResolver κ) (markers : Markers) (token : τ) (now : ℤ) (reply : RedisReply) :
    Except AuthError AuthenticatedPrincipal :=
  admission (provider.claims jwt resolver token now) provider.authMethod
    (store.isRevoked markers now reply)

/-- The principal of a token at a time, whether it is revoked or not. -/
def verified (provider : Provider) (jwt : Jwt τ κ) (resolver : SigningKeyResolver κ) (token : τ)
    (now : ℤ) : Except AuthError AuthenticatedPrincipal :=
  provider.claims jwt resolver token now >>= fun c => principalOf c provider.authMethod

variable {provider : Provider} {jwt : Jwt τ κ} {resolver : SigningKeyResolver κ} {token : τ} {now : ℤ}

theorem verified_ok
    :
    provider.verified jwt resolver token now = .ok principal ↔
      ∃ c, provider.claims jwt resolver token now = .ok c ∧
        principalOf c provider.authMethod = .ok principal :=
  bind_eq_ok

theorem authenticate_ok {markers : Markers} {reply : RedisReply}
    :
    provider.authenticate jwt store resolver markers token now reply = .ok principal ↔
      provider.verified jwt resolver token now = .ok principal ∧ reply = .done ∧
        markers.get now (store.key principal.jti.value) = none := by
  unfold authenticate
  rw [admit_ok, verified_ok]
  cases reply <;> simp [RedisRevocationStore.isRevoked]

end Provider

/-! ### What is outside -/

/-- **What the code relies on**: `jwt.decode` accepts a token until its expiry and the leeway, and from
then on refuses it; tokens with the identity of one another expire together; and no two identities
have one digest. -/
structure Relies (jwt : Jwt τ κ) (digest : Digest) : Prop where
  refused_after : ∀ token key options now c, jwt.decode token key options now = .ok c →
    now < c.exp + options.leeway * second
  accepted_until : ∀ token key options now later c, jwt.decode token key options now = .ok c →
    now ≤ later → later < c.exp + options.leeway * second →
    jwt.decode token key options later = .ok c
  unique_jti : ∀ token token' key key' options options' now now' c c',
    jwt.decode token key options now = .ok c → jwt.decode token' key' options' now' = .ok c' →
    Worker.Db.strip c.jti = Worker.Db.strip c'.jti → c.exp = c'.exp
  digest_injective : Function.Injective digest

theorem Provider.claims_decoded (provider : Provider) (jwt : Jwt τ κ) (resolver : SigningKeyResolver κ)
    (token : τ) : (∀ now, ∃ e, provider.claims jwt resolver token now = .error e) ∨
      ∃ key options, options.leeway = provider.leewaySeconds ∧ ∀ now c,
        provider.claims jwt resolver token now = .ok c ↔ jwt.decode token key options now = .ok c := by
  have hmap (x : Except JwtError Claims) (c : Claims) :
      x.mapError JwtError.reported = .ok c ↔ x = .ok c := by
    cases x <;> simp [Except.mapError]
  cases provider with
  | development provider => exact .inr ⟨_, _, rfl, fun now c => hmap _ c⟩
  | oidc provider =>
    unfold claims
    simp only [OidcJwtProvider.claims]
    split
    · exact .inl fun now => ⟨_, rfl⟩
    · split
      · exact .inl fun now => ⟨_, rfl⟩
      · split
        · exact .inl fun now => ⟨_, rfl⟩
        · exact .inr ⟨_, _, rfl, fun now c => hmap _ c⟩
    · exact .inl fun now => ⟨_, rfl⟩

section Verified

variable {provider : Provider} {jwt : Jwt τ κ} {digest : Digest} {resolver resolver' : SigningKeyResolver κ}
  {token token' : τ} {now later : ℤ} {p q : AuthenticatedPrincipal}

theorem Provider.before_of_verified (hr : Relies jwt digest)
    (h : provider.verified jwt resolver token now = .ok p) :
    now < p.expiresAt + provider.leewaySeconds * second := by
  obtain ⟨c, hc, hp⟩ := Provider.verified_ok.mp h
  rw [(principalOf_ok hp).2.1]
  rcases provider.claims_decoded jwt resolver token with
    hnone | ⟨key, options, hleeway, hdecoded⟩
  · obtain ⟨e, he⟩ := hnone now
    rw [hc] at he
    cases he
  · rw [← hleeway]
    exact hr.refused_after _ _ _ _ _ ((hdecoded now c).mp hc)

theorem Provider.verified_until (hr : Relies jwt digest)
    (h : provider.verified jwt resolver token now = .ok p)
    (hle : now ≤ later) (hlater : later < p.expiresAt + provider.leewaySeconds * second) :
    provider.verified jwt resolver token later = .ok p := by
  obtain ⟨c, hc, hp⟩ := Provider.verified_ok.mp h
  rw [(principalOf_ok hp).2.1] at hlater
  rcases provider.claims_decoded jwt resolver token with
    hnone | ⟨key, options, hleeway, hdecoded⟩
  · obtain ⟨e, he⟩ := hnone now
    rw [hc] at he
    cases he
  · rw [← hleeway] at hlater
    refine Provider.verified_ok.mpr ⟨c, (hdecoded later c).mpr ?_, hp⟩
    exact hr.accepted_until _ _ _ _ _ _ ((hdecoded now c).mp hc) hle hlater

theorem Provider.expire_together (hr : Relies jwt digest)
    (h : provider.verified jwt resolver token now = .ok p)
    (h' : provider.verified jwt resolver' token' later = .ok q) (hjti : p.jti.value = q.jti.value) :
    p.expiresAt = q.expiresAt := by
  obtain ⟨c, hc, hp⟩ := Provider.verified_ok.mp h
  obtain ⟨c', hc', hq⟩ := Provider.verified_ok.mp h'
  rw [(principalOf_ok hp).2.1, (principalOf_ok hq).2.1]
  rw [(principalOf_ok hp).2.2, (principalOf_ok hq).2.2] at hjti
  rcases provider.claims_decoded jwt resolver token with
    hnone | ⟨key, options, -, hdecoded⟩
  · obtain ⟨e, he⟩ := hnone now
    rw [hc] at he
    cases he
  · rcases provider.claims_decoded jwt resolver' token' with
      hnone | ⟨key', options', -, hdecoded'⟩
    · obtain ⟨e, he⟩ := hnone later
      rw [hc'] at he
      cases he
    · exact hr.unique_jti _ _ _ _ _ _ _ _ _ _ ((hdecoded _ _).mp hc) ((hdecoded' _ _).mp hc') hjti

end Verified

theorem RedisRevocationStore.key_injective {jwt : Jwt τ κ} (hr : Relies jwt store.digest) {jti jti' : String}
    (h : store.key jti = store.key jti') : jti = jti' := by
  apply hr.digest_injective
  have hchars := congrArg String.toList h
  simp only [key, String.toList_append, List.append_cancel_left_eq] at hchars
  exact String.toList_inj.mp hchars

end Providers

theorem markedUntil_bounds (expiresAt now : ℤ) :
    expiresAt ≤ now + remainingSeconds expiresAt now * second ∧
      now + remainingSeconds expiresAt now * second < expiresAt + second := by
  unfold remainingSeconds second
  omega

theorem remainingSeconds_pos {expiresAt now : ℤ} : 0 < remainingSeconds expiresAt now ↔ now < expiresAt := by
  unfold remainingSeconds second
  omega

end CountyFlow.Security
