import Mathlib.Data.List.DropRight
import CountyFlow.Core.Value
import CountyFlow.Worker.Ledger

/-!
# Principals

`app/security/permissions.py` and `app/security/models.py`: the roles, what they may do, and the
principal that a verified token stands for.  A text that has passed `_required` is held with what the
check says about it, so that a principal is well formed by its type.
-/

namespace CountyFlow.Security

open CountyFlow.Core
open CountyFlow.Worker.Db (strip isSpace)

/-! ### Normalised texts -/

theorem dropWhile_rdropWhile {α : Type} (p : α → Bool) (l : List α) :
    ((l.dropWhile p).rdropWhile p).dropWhile p = (l.dropWhile p).rdropWhile p := by
  have hdropped : (l.dropWhile p).dropWhile p = l.dropWhile p := List.dropWhile_idempotent p l
  generalize l.dropWhile p = m at hdropped
  obtain ⟨rest, hrest⟩ := List.rdropWhile_prefix p m
  cases hr : m.rdropWhile p with
  | nil => rfl
  | cons a r =>
    rw [hr] at hrest
    subst hrest
    have ha : ¬ p a = true := by
      simpa using List.dropWhile_eq_self_iff.mp hdropped
    exact List.dropWhile_cons_of_neg ha

theorem strip_strip (s : String) : strip (strip s) = strip s := by
  have hstrip (t : String) : strip t = String.ofList ((t.toList.dropWhile isSpace).rdropWhile isSpace) := rfl
  rw [hstrip (strip s), hstrip s, String.toList_ofList, dropWhile_rdropWhile, List.rdropWhile_idempotent]

/-- A text that is stripped, not empty, and not longer than `maximum`. -/
@[ext] structure Text (maximum : ℕ) where
  value : String
  stripped : strip value = value
  nonempty : value ≠ ""
  bounded : value.length ≤ maximum
  deriving DecidableEq

def required (value name : String) (maximum : ℕ) : Except String (Text maximum) :=
  if hempty : strip value = "" then .error (name ++ " must not be empty")
  else if hlong : maximum < (strip value).length then
    .error (name ++ " exceeds " ++ toString maximum ++ " characters")
  else .ok ⟨strip value, strip_strip value, hempty, Nat.le_of_not_lt hlong⟩

theorem required_value {maximum : ℕ} (t : Text maximum) (name : String) :
    required t.value name maximum = .ok t := by
  have hempty : ¬ strip t.value = "" := by
    rw [t.stripped]
    exact t.nonempty
  have hlong : ¬ maximum < (strip t.value).length := by
    rw [t.stripped]
    exact Nat.not_lt.mpr t.bounded
  unfold required
  rw [dif_neg hempty, dif_neg hlong]
  congr 1
  exact Text.ext t.stripped

theorem required_ok {value name : String} {maximum : ℕ} {t : Text maximum}
    (h : required value name maximum = .ok t) : t.value = strip value := by
  unfold required at h
  split at h
  · cases h
  · split at h
    · cases h
    · cases h
      rfl

/-! ### Roles and permissions -/

inductive Role where
  | employee | dispatcher | supervisor | operator | auditor | admin
  deriving DecidableEq, Repr

def Role.value : Role → String
  | .employee => "EMPLOYEE"
  | .dispatcher => "DISPATCHER"
  | .supervisor => "SUPERVISOR"
  | .operator => "OPERATOR"
  | .auditor => "AUDITOR"
  | .admin => "ADMIN"

/-- `Role(value)`, `none` for a `ValueError`. -/
def Role.ofValue (value : String) : Option Role :=
  [Role.employee, .dispatcher, .supervisor, .operator, .auditor, .admin].find?
    fun role => role.value = value

inductive Permission where
  | dispatchRead | dispatchCreate | dispatchReview | ordersRead | anomaliesRead | anomaliesReport
  | agentsRead | memoryRead | memoryMutate | runtimeRead | runtimeOverride | auditRead | monitorRead
  | systemAdmin
  deriving DecidableEq, Repr

def Permission.value : Permission → String
  | .dispatchRead => "dispatch:read"
  | .dispatchCreate => "dispatch:create"
  | .dispatchReview => "dispatch:review"
  | .ordersRead => "orders:read"
  | .anomaliesRead => "anomalies:read"
  | .anomaliesReport => "anomalies:report"
  | .agentsRead => "agents:read"
  | .memoryRead => "memory:read"
  | .memoryMutate => "memory:mutate"
  | .runtimeRead => "runtime:read"
  | .runtimeOverride => "runtime:override"
  | .auditRead => "audit:read"
  | .monitorRead => "monitor:read"
  | .systemAdmin => "system:admin"

def allPermissions : List Permission :=
  [.dispatchRead, .dispatchCreate, .dispatchReview, .ordersRead, .anomaliesRead, .anomaliesReport,
    .agentsRead, .memoryRead, .memoryMutate, .runtimeRead, .runtimeOverride, .auditRead, .monitorRead,
    .systemAdmin]

/-- `Permission(value)`, `none` for a `ValueError`. -/
def Permission.ofValue (value : String) : Option Permission :=
  allPermissions.find? fun permission => permission.value = value

theorem Permission.ofValue_value (permission : Permission) :
    Permission.ofValue permission.value = some permission := by
  cases permission <;> decide

/-- The permissions of a dispatcher, in `_matrix`. -/
def dispatcherPermissions : List Permission :=
  [.dispatchRead, .dispatchCreate, .ordersRead, .anomaliesRead, .agentsRead, .memoryRead]

/-- `ROLE_PERMISSION_MATRIX`; a set of permissions is held by a list of its members. -/
def rolePermissionMatrix : Role → List Permission
  | .employee => [.dispatchRead, .anomaliesReport]
  | .dispatcher => dispatcherPermissions
  | .supervisor => dispatcherPermissions ++
      [.dispatchReview, .memoryMutate, .runtimeRead, .runtimeOverride, .auditRead, .monitorRead]
  | .operator => [.agentsRead, .runtimeRead, .auditRead, .monitorRead]
  | .auditor => [.memoryRead, .runtimeRead, .auditRead, .monitorRead]
  | .admin => allPermissions

/-- `permissions_for_roles`, its permissions: an unknown role adds none. -/
def permissionsForRoles (values : List String) : List Permission :=
  (values.filterMap Role.ofValue).flatMap rolePermissionMatrix

/-! ### Principals -/

inductive AuthMethod where
  | oidcJwt | developmentJwt
  deriving DecidableEq, Repr

/-- `AuthenticatedPrincipal`, with what `__post_init__` has checked; a time is in microseconds. -/
structure AuthenticatedPrincipal where
  subjectId : Text 128
  displayName : Text 256
  roles : List Role
  permissions : List Permission
  authMethod : AuthMethod
  issuedAt : ℤ
  expiresAt : ℤ
  jti : Text 256
  issued_lt_expires : issuedAt < expiresAt
  deriving DecidableEq

def AuthenticatedPrincipal.can (principal : AuthenticatedPrincipal) (permission : Permission) : Bool :=
  permission ∈ principal.permissions

/-- `AuthenticatedPrincipal(...)`: the checks of `__post_init__` in their order. -/
def AuthenticatedPrincipal.make (subjectId displayName : String) (roles : List Role)
    (permissions : List Permission) (authMethod : AuthMethod) (issuedAt expiresAt : ℤ) (jti : String) :
    Except String AuthenticatedPrincipal :=
  match required subjectId "subject_id" 128 with
  | .error e => .error e
  | .ok subjectId =>
    match required displayName "display_name" 256 with
    | .error e => .error e
    | .ok displayName =>
      match required jti "jti" 256 with
      | .error e => .error e
      | .ok jti =>
        if h : issuedAt < expiresAt then
          .ok ⟨subjectId, displayName, roles, permissions, authMethod, issuedAt, expiresAt, jti, h⟩
        else .error "expires_at must be later than issued_at"

theorem AuthenticatedPrincipal.make_ok {subjectId displayName : String} {roles : List Role}
    {permissions : List Permission} {authMethod : AuthMethod} {issuedAt expiresAt : ℤ} {jti : String}
    {principal : AuthenticatedPrincipal}
    (h : make subjectId displayName roles permissions authMethod issuedAt expiresAt jti = .ok principal) :
    principal.roles = roles ∧ principal.expiresAt = expiresAt ∧ principal.jti.value = strip jti := by
  unfold make at h
  split at h
  · cases h
  · split at h
    · cases h
    · split at h
      · cases h
      · rename_i hjti
        split at h
        · cases h
          exact ⟨rfl, rfl, required_ok hjti⟩
        · cases h

end CountyFlow.Security
