import Mathlib.Algebra.Order.Field.Rat
import Mathlib.Tactic.Linarith
import CountyFlow.Graph.State

/-!
# The circuit breaker and the services behind it

`CircuitBreaker` of `app/services/circuit_breaker.py`, and the two services that ask it before they call
a provider: `EnvironmentService.get_environment` and `RealRoadRouteService.plan`.  No method of the
breaker waits while it holds the lock, so that each is one step; a clock reading is an argument.

A service is given in two parts, up to the call of the provider and from its end.
-/

namespace CountyFlow.Breaker

/-! ### The breaker -/

inductive CircuitState where
  | closed | «open» | halfOpen
  deriving DecidableEq, Repr

/-- The fields of a `CircuitBreaker`, without its clock and its lock. -/
structure CircuitBreaker where
  failureThreshold : ℤ
  recoverySeconds : ℚ
  state : CircuitState
  failureCount : ℤ
  openedAt : Option ℚ
  halfOpenProbeInFlight : Bool
  deriving DecidableEq, Repr

namespace CircuitBreaker

/-- `__init__`. -/
def new (failureThreshold : ℤ) (recoverySeconds : ℚ) : CircuitBreaker :=
  ⟨failureThreshold, recoverySeconds, .closed, 0, none, false⟩

/-- An open breaker has waited long enough. -/
def recovered (b : CircuitBreaker) (clock : ℚ) : Bool :=
  match b.openedAt with
  | none => false
  | some openedAt => b.recoverySeconds ≤ clock - openedAt

def allowRequest (b : CircuitBreaker) (clock : ℚ) : Bool × CircuitBreaker :=
  match b.state with
  | .closed => (true, b)
  | .open =>
    if b.recovered clock then
      (true, { b with state := .halfOpen, halfOpenProbeInFlight := true })
    else (false, b)
  | .halfOpen =>
    if b.halfOpenProbeInFlight then (false, b)
    else (true, { b with halfOpenProbeInFlight := true })

def recordSuccess (b : CircuitBreaker) : CircuitBreaker :=
  { b with state := .closed, failureCount := 0, openedAt := none, halfOpenProbeInFlight := false }

/-- `_open`. -/
def opens (b : CircuitBreaker) (clock : ℚ) : CircuitBreaker :=
  { b with state := .open, openedAt := some clock, halfOpenProbeInFlight := false }

def recordFailure (b : CircuitBreaker) (clock : ℚ) : CircuitBreaker :=
  if b.state = .halfOpen then b.opens clock
  else
    let counted := { b with failureCount := b.failureCount + 1 }
    if b.failureThreshold ≤ counted.failureCount then counted.opens clock else counted

section Methods

variable {b : CircuitBreaker} {clock : ℚ}

@[simp] theorem recordSuccess_state : b.recordSuccess.state = .closed := rfl
@[simp] theorem opens_state : (b.opens clock).state = .open := rfl
@[simp] theorem opens_openedAt : (b.opens clock).openedAt = some clock := rfl
@[simp] theorem opens_probe : (b.opens clock).halfOpenProbeInFlight = false := rfl

theorem recovered_iff {openedAt : ℚ} (h : b.openedAt = some openedAt) :
    b.recovered clock = true ↔ openedAt + b.recoverySeconds ≤ clock := by
  simp only [recovered, h, decide_eq_true_eq]
  constructor <;> intro h <;> linarith

theorem allowRequest_cases (b : CircuitBreaker) (clock : ℚ) :
    (b.state = .closed ∧ b.allowRequest clock = (true, b)) ∨
      (b.state ≠ .closed ∧ b.allowRequest clock = (false, b)) ∨
      ((b.state = .open ∧ b.recovered clock = true ∨
          b.state = .halfOpen ∧ b.halfOpenProbeInFlight = false) ∧
        b.allowRequest clock = (true, { b with state := .halfOpen, halfOpenProbeInFlight := true })) := by
  unfold allowRequest
  cases hstate : b.state with
  | closed => exact .inl ⟨rfl, rfl⟩
  | «open» =>
    by_cases h : b.recovered clock = true
    · exact .inr (.inr ⟨.inl ⟨rfl, h⟩, by simp [h]⟩)
    · exact .inr (.inl ⟨by simp, by simp [h]⟩)
  | halfOpen =>
    by_cases h : b.halfOpenProbeInFlight = true
    · exact .inr (.inl ⟨by simp, by simp [h]⟩)
    · have hfree : b.halfOpenProbeInFlight = false := by simpa using h
      refine .inr (.inr ⟨.inr ⟨rfl, hfree⟩, ?_⟩)
      show (if b.halfOpenProbeInFlight then _ else _) = _
      rw [if_neg h, ← hstate]

theorem recordFailure_open (h : b.state = .halfOpen ∨ b.failureThreshold ≤ b.failureCount + 1) :
    ∃ count, b.recordFailure clock = ({ b with failureCount := count }).opens clock := by
  unfold recordFailure
  split
  · exact ⟨b.failureCount, rfl⟩
  · rename_i hstate
    have hthreshold := h.resolve_left hstate
    exact ⟨b.failureCount + 1, by simp [hthreshold]⟩

theorem recordFailure_counted (hstate : b.state ≠ .halfOpen) (h : ¬ b.failureThreshold ≤ b.failureCount + 1) :
    b.recordFailure clock = { b with failureCount := b.failureCount + 1 } := by
  simp [recordFailure, hstate, h]

end Methods

end CircuitBreaker

/-! ### Environment -/

/-- `EnvironmentResult`, without the elapsed time. -/
structure EnvironmentResult where
  weather : String
  roadCondition : String
  riskLevel : String
  providerName : String
  fallbackUsed : Bool
  fallbackReason : Option String
  deriving DecidableEq, Repr

/-- `str.lower`, as far as it decides whether a text contains one of the words below: no character
outside ASCII has one of their letters as its lower case. -/
def lower (value : String) : String := String.ofList (value.toList.map Char.toLower)

def getFallback (routeId reason : String) : EnvironmentResult :=
  let routeContext := lower routeId
  let (weather, roadCondition, riskLevel) :=
    if Graph.contains routeContext "closed" then ("unknown", "closed", "critical")
    else if Graph.contains routeContext "rain" ∨ Graph.contains routeContext "slippery" then
      ("heavy_rain", "slippery", "high")
    else ("unknown", "unknown", "elevated")
  { weather := weather
    roadCondition := roadCondition
    riskLevel := riskLevel
    providerName := "static_route_fallback"
    fallbackUsed := true
    fallbackReason := some reason }

/-! ### Real roads -/

/-- `GeoPoint`; a decimal is held by its text. -/
structure GeoPoint where
  nodeId : Option String
  longitude : String
  latitude : String
  deriving DecidableEq, Repr

structure DrivingRouteResult where
  distanceMeters : ℤ
  durationSeconds : ℤ
  polyline : List GeoPoint
  deriving DecidableEq, Repr

structure RealRoadRoute where
  provider : String
  source : String
  status : String
  coordinateSystem : String
  mappingVersion : String
  distanceMeters : Option ℤ
  durationSeconds : Option ℤ
  waypoints : List GeoPoint
  polyline : List GeoPoint
  fallbackReason : Option String
  deriving DecidableEq, Repr

def mappingVersion : String := "DEMO_AMAP_V1"

def nodeCoordinates : List (String × String × String) :=
  [("N01", "103.044800", "25.226500"), ("N02", "103.032000", "25.232000"),
    ("N03", "103.057000", "25.239000"), ("N04", "103.079000", "25.246000"),
    ("N05", "103.104000", "25.252000"), ("N06", "103.135000", "25.261000"),
    ("N07", "103.018000", "25.207000"), ("N08", "103.062000", "25.198000"),
    ("N09", "103.105000", "25.214000"), ("N10", "103.025000", "25.267000"),
    ("N11", "103.013000", "25.303000"), ("N12", "102.973000", "25.247000"),
    ("N13", "103.072000", "25.158000"), ("N14", "102.991000", "25.217000"),
    ("N15", "103.077000", "25.228000"), ("N16", "102.997000", "25.279000"),
    ("N17", "103.132000", "25.293000"), ("N18", "103.151000", "25.204000"),
    ("N19", "103.051000", "25.220000"), ("N20", "103.092000", "25.235000"),
    ("N21", "103.117000", "25.225000"), ("N22", "103.069000", "25.231000")]

inductive Raised where
  | valueError (message : String)
  | other (name : String)
  | cancelled
  deriving DecidableEq, Repr

def demoGeoPoint (nodeId : String) : Except Raised GeoPoint :=
  match nodeCoordinates.lookup nodeId with
  | none => .error (.valueError ("虚拟路线节点没有高德坐标映射: " ++ nodeId))
  | some (longitude, latitude) => .ok ⟨some nodeId, longitude, latitude⟩

def demoGeoPoints (nodeIds : List String) : Except Raised (List GeoPoint) := nodeIds.mapM demoGeoPoint

def verifiedRoute (waypoints : List GeoPoint) (route : DrivingRouteResult) : RealRoadRoute where
  provider := "AMAP"
  source := "AMAP_WEB_SERVICE"
  status := "VERIFIED"
  coordinateSystem := "GCJ02"
  mappingVersion := mappingVersion
  distanceMeters := some route.distanceMeters
  durationSeconds := some route.durationSeconds
  waypoints := waypoints
  polyline := route.polyline
  fallbackReason := none

/-- `_fallback`. -/
def fallbackRoute (waypoints : List GeoPoint) (reason : String) : RealRoadRoute where
  provider := "AMAP"
  source := "CLIENT_WAYPOINT_FALLBACK"
  status := "CLIENT_MATCH_REQUIRED"
  coordinateSystem := "GCJ02"
  mappingVersion := mappingVersion
  distanceMeters := none
  durationSeconds := none
  waypoints := waypoints
  polyline := waypoints
  fallbackReason := some reason

/-! ### Calls through a breaker -/

inductive ProviderOutcome (ρ : Type) where
  | returned (result : ρ)
  | providerError (timeout : Bool)
  | raised (name : String)
  | cancelled
  deriving DecidableEq, Repr

/-- What a guarded call answers: refused by the breaker, after a `ProviderError`, and for a result. -/
structure Guarded (ρ α : Type) where
  refused : α
  failed : Bool → α
  succeeded : ρ → α

/-- The end of a guarded call: a result and a `ProviderError` are recorded, any other exception goes
through. -/
def Guarded.resume {ρ α : Type} (g : Guarded ρ α) (b : CircuitBreaker) (clock : ℚ) :
    ProviderOutcome ρ → Except Raised α × CircuitBreaker
  | .returned result => (.ok (g.succeeded result), b.recordSuccess)
  | .providerError timeout => (.ok (g.failed timeout), b.recordFailure clock)
  | .raised name => (.error (.other name), b)
  | .cancelled => (.error .cancelled, b)

def getEnvironment (routeId : String) : Guarded EnvironmentResult EnvironmentResult where
  refused := getFallback routeId "Environment circuit breaker is open."
  failed := fun timeout => getFallback routeId
    (if timeout then "Primary environment provider timed out."
      else "Primary environment provider failed.")
  succeeded := id

/-- `RealRoadRouteService.plan` behind its checks. -/
def planRoute (waypoints : List GeoPoint) : Guarded DrivingRouteResult RealRoadRoute where
  refused := fallbackRoute waypoints "AMap Web Service is temporarily unavailable."
  failed := fun _ => fallbackRoute waypoints "AMap Web Service is temporarily unavailable."
  succeeded := verifiedRoute waypoints

/-- The checks of `RealRoadRouteService.plan`: the waypoints it plans with. -/
def checkedWaypoints (nodeIds : List String) : Except Raised (List GeoPoint) :=
  if nodeIds.length < 2 then
    .error (.valueError "A real-road route requires at least two mapped nodes.")
  else demoGeoPoints nodeIds

end CountyFlow.Breaker
