import CountyFlow.Security.Isoformat
import CountyFlow.Security.Revocation

/-!
# WebSocket tickets

`RedisWsTicketService` of `app/security/ws_ticket.py`.  The document of a ticket is held as the value
that `json.dumps` writes and `json.loads` reads back.
-/

namespace CountyFlow.Security

open CountyFlow.Core CountyFlow.Lib
open CountyFlow.Worker.Db (strip isSpace)

/-- The codes of a `WsTicketRejected`. -/
inductive TicketRejection where
  | permissionDenied | invalid | replayedOrExpired | wrongScope
  deriving DecidableEq, Repr

def TicketRejection.code : TicketRejection → String
  | .permissionDenied => "WS_TICKET_PERMISSION_DENIED"
  | .invalid => "WS_TICKET_INVALID"
  | .replayedOrExpired => "WS_TICKET_REPLAYED_OR_EXPIRED"
  | .wrongScope => "WS_TICKET_WRONG_SCOPE"

inductive TicketError where
  | unavailable
  | rejected (rejection : TicketRejection)
  | valueError (message : String)
  | overflow
  deriving DecidableEq, Repr

structure IssuedWsTicket where
  ticket : String
  targetType : Text 32
  targetId : Text 128
  expiresAt : Datetime
  deriving DecidableEq

structure ConsumedWsTicket where
  subjectId : Text 128
  targetType : Text 32
  targetId : Text 128
  requiredPermission : Permission
  issuedAt : Datetime
  expiresAt : Datetime
  canReview : Bool
  deriving DecidableEq

/-- `RedisWsTicketService`, without its client and its clock. -/
structure RedisWsTicketService where
  namespace_ : String
  digest : Digest
  ttlSeconds : ℕ
  bounded : 15 ≤ ttlSeconds ∧ ttlSeconds ≤ 120

abbrev Tickets := Expiring String Value

/-- `_text`, of a text. -/
def normalized (s name : String) (maximum : ℕ) : Except String (Text maximum) :=
  if h : strip s ≠ "" ∧ (strip s).length ≤ maximum then .ok ⟨strip s, strip_strip s, h.1, h.2⟩
  else .error ("invalid WebSocket ticket " ++ name)

def text (value : Value) (name : String) (maximum : ℕ) : Except String (Text maximum) :=
  match value with
  | .str s => normalized s name maximum
  | _ => .error ("invalid WebSocket ticket " ++ name)

theorem text_value {maximum : ℕ} (t : Text maximum) (name : String) :
    text (.str t.value) name maximum = .ok t := by
  have h : strip t.value ≠ "" ∧ (strip t.value).length ≤ maximum := by
    rw [t.stripped]
    exact ⟨t.nonempty, t.bounded⟩
  have hsame : (⟨strip t.value, strip_strip t.value, h.1, h.2⟩ : Text maximum) = t := Text.ext t.stripped
  simp only [text, normalized, dif_pos h, hsame]

def boolean (value : Value) (name : String) : Except String Bool :=
  match value with
  | .bool b => .ok b
  | _ => .error ("invalid WebSocket ticket " ++ name)

/-! ### What a ticket stands for -/

/-- What `issue` has checked and decided before it draws a ticket. -/
structure Grant where
  principal : AuthenticatedPrincipal
  targetType : Text 32
  targetId : Text 128
  permission : Permission
  issuedAt : Datetime
  expiresAt : Datetime
  deriving DecidableEq

/-- `issued_at + timedelta(seconds=ttl_seconds)`, `none` for an `OverflowError`. -/
def Datetime.plusSeconds (t : Datetime) (seconds : ℕ) : Option Datetime :=
  if h : t.microseconds + seconds * 1000000 < endOfTime then
    some ⟨t.microseconds + seconds * 1000000, h⟩
  else none

/-- `issue`, up to the drawing of a ticket. -/
def RedisWsTicketService.grant (service : RedisWsTicketService) (principal : AuthenticatedPrincipal)
    (targetType targetId : String) (permission : Permission) (now : Datetime) :
    Except TicketError Grant :=
  if principal.can permission = false then .error (.rejected .permissionDenied)
  else
    match text (.str targetType) "target_type" 32 with
    | .error e => .error (.valueError e)
    | .ok targetType =>
      match text (.str targetId) "target_id" 128 with
      | .error e => .error (.valueError e)
      | .ok targetId =>
        match now.plusSeconds service.ttlSeconds with
        | none => .error .overflow
        | some expiresAt => .ok ⟨principal, targetType, targetId, permission, now, expiresAt⟩

variable {targetType targetId : String} {permission : Permission} {g : Grant}

theorem RedisWsTicketService.grant_can {service : RedisWsTicketService} {principal : AuthenticatedPrincipal}
    {now : Datetime} (h : service.grant principal targetType targetId permission now = .ok g) :
    g.principal.can g.permission = true := by
  unfold grant at h
  by_cases hcan : principal.can permission = false
  · rw [if_pos hcan] at h
    cases h
  · rw [if_neg hcan] at h
    generalize text (.str targetType) "target_type" 32 = targetType at h
    generalize text (.str targetId) "target_id" 128 = targetId at h
    generalize now.plusSeconds service.ttlSeconds = expiresAt at h
    cases targetType with
    | error e => cases h
    | ok targetType =>
      cases targetId with
      | error e => cases h
      | ok targetId =>
        cases expiresAt with
        | none => cases h
        | some expiresAt =>
          cases h
          simpa using hcan

namespace Grant

/-- The document of the ticket, its keys in order. -/
def serialize (g : Grant) : Value :=
  .dict [("can_review", .bool (g.principal.can .dispatchReview)),
    ("expires_at", .str (isoformat g.expiresAt)),
    ("issued_at", .str (isoformat g.issuedAt)),
    ("required_permission", .str g.permission.value),
    ("subject_id", .str g.principal.subjectId.value),
    ("target_id", .str g.targetId.value),
    ("target_type", .str g.targetType.value)]

/-- What an accepted `consume` of the ticket returns. -/
def consumed (g : Grant) : ConsumedWsTicket where
  subjectId := g.principal.subjectId
  targetType := g.targetType
  targetId := g.targetId
  requiredPermission := g.permission
  issuedAt := g.issuedAt
  expiresAt := g.expiresAt
  canReview := g.principal.can .dispatchReview

/-- The answer of `issue`. -/
def issued (g : Grant) (ticket : String) : IssuedWsTicket :=
  ⟨ticket, g.targetType, g.targetId, g.expiresAt⟩

end Grant

/-- `datetime.fromisoformat` of a value. -/
def datetimeOf : Value → Option Datetime
  | .str s => fromisoformat s
  | _ => none

/-- `Permission(value)` of a value. -/
def permissionOf : Value → Option Permission
  | .str s => Permission.ofValue s
  | _ => none

/-- The ticket of a document, `none` for the exceptions that make it invalid. -/
def parse (payload : Value) : Option ConsumedWsTicket :=
  match payload with
  | .dict entries => do
      let subjectId ← (text (← entries.lookup "subject_id") "subject_id" 128).toOption
      let targetType ← (text (← entries.lookup "target_type") "target_type" 32).toOption
      let targetId ← (text (← entries.lookup "target_id") "target_id" 128).toOption
      let requiredPermission ← permissionOf (← entries.lookup "required_permission")
      let issuedAt ← datetimeOf (← entries.lookup "issued_at")
      let expiresAt ← datetimeOf (← entries.lookup "expires_at")
      let canReview ←
        (boolean ((entries.lookup "can_review").getD (.bool false)) "can_review").toOption
      some ⟨subjectId, targetType, targetId, requiredPermission, issuedAt, expiresAt, canReview⟩
  | _ => none

theorem parse_entries {entries : List (String × Value)}
    (hsubject : entries.lookup "subject_id" = some (.str g.principal.subjectId.value))
    (htype : entries.lookup "target_type" = some (.str g.targetType.value))
    (hid : entries.lookup "target_id" = some (.str g.targetId.value))
    (hpermission : entries.lookup "required_permission" = some (.str g.permission.value))
    (hissued : entries.lookup "issued_at" = some (.str (isoformat g.issuedAt)))
    (hexpires : entries.lookup "expires_at" = some (.str (isoformat g.expiresAt)))
    (hreview : entries.lookup "can_review" = some (.bool (g.principal.can .dispatchReview))) :
    parse (.dict entries) = some g.consumed := by
  simp only [parse, hsubject, htype, hid, hpermission, hissued, hexpires, hreview, text_value,
    datetimeOf, permissionOf, boolean, fromisoformat_isoformat, Permission.ofValue_value,
    Except.toOption, Option.getD_some, Option.bind_eq_bind, Option.bind_some, Grant.consumed]

theorem parse_serialize (g : Grant) : parse g.serialize = some g.consumed := by
  apply parse_entries <;> simp [List.lookup_cons]

/-! ### `consume` -/

/-- `TICKET_PATTERN`. -/
def wellFormed (ticket : String) : Bool :=
  ticket.length = 43 ∧ ticket.toList.all fun c => c.isAlphanum ∨ c = '_' ∨ c = '-'

namespace RedisWsTicketService

variable (service : RedisWsTicketService)

def key (ticket : String) : String := service.namespace_ ++ ":" ++ service.digest ticket

theorem key_injective {service : RedisWsTicketService} (hdigest : Function.Injective service.digest)
    {ticket ticket' : String} (h : service.key ticket = service.key ticket') : ticket = ticket' := by
  apply hdigest
  have hchars := congrArg String.toList h
  simp only [key, String.toList_append, List.append_cancel_left_eq] at hchars
  exact String.toList_inj.mp hchars

/-- The checks of `consume` on a ticket that it has read. -/
def judge (consumed : ConsumedWsTicket) (targetType targetId : String) (permission : Permission)
    (clock : Datetime) : Except TicketError ConsumedWsTicket :=
  if consumed.expiresAt.microseconds ≤ clock.microseconds then .error (.rejected .replayedOrExpired)
  else if consumed.targetType.value ≠ targetType ∨ consumed.targetId.value ≠ targetId then
    .error (.rejected .wrongScope)
  else if consumed.requiredPermission ≠ permission then .error (.rejected .permissionDenied)
  else .ok consumed

/-- `consume`: the document is taken out of the store before anything is checked. -/
def consume (tickets : Tickets) (ticket targetType targetId : String) (permission : Permission)
    (clock : Datetime) (redisNow : ℤ) (reply : RedisReply) :
    Except TicketError ConsumedWsTicket × Tickets :=
  if wellFormed ticket = false then (.error (.rejected .invalid), tickets)
  else
    match reply with
    | .failed => (.error .unavailable, tickets)
    | .lost => (.error .unavailable, tickets.remove (service.key ticket))
    | .done =>
      match tickets.get redisNow (service.key ticket) with
      | none => (.error (.rejected .replayedOrExpired), tickets)
      | some payload =>
        match parse payload with
        | none => (.error (.rejected .invalid), tickets.remove (service.key ticket))
        | some consumed =>
          (judge consumed targetType targetId permission clock,
            tickets.remove (service.key ticket))

end RedisWsTicketService

/-- The answer shows that the call has had the ticket: it is accepted, or rejected for its scope or its
permission. -/
def took : Except TicketError ConsumedWsTicket → Bool
  | .ok _ => true
  | .error (.rejected .wrongScope) | .error (.rejected .permissionDenied) => true
  | .error _ => false

theorem judge_ok {consumed result : ConsumedWsTicket} {clock : Datetime}
    (h : RedisWsTicketService.judge consumed targetType targetId permission clock = .ok result) :
    result = consumed ∧ consumed.targetType.value = targetType ∧ consumed.targetId.value = targetId ∧
      consumed.requiredPermission = permission ∧
      clock.microseconds < consumed.expiresAt.microseconds := by
  unfold RedisWsTicketService.judge at h
  split at h
  · cases h
  · rename_i hexpires
    split at h
    · cases h
    · rename_i hscope
      obtain ⟨htype, hid⟩ := not_or.mp hscope
      split at h
      · cases h
      · rename_i hpermission
        cases h
        exact ⟨rfl, not_not.mp htype, not_not.mp hid, not_not.mp hpermission, Nat.lt_of_not_le hexpires⟩

theorem consume_cases (service : RedisWsTicketService) (tickets : Tickets)
    (ticket targetType targetId : String) (permission : Permission) (clock : Datetime) (redisNow : ℤ)
    (reply : RedisReply) :
    (∃ e, took (.error e) = false ∧
      (service.consume tickets ticket targetType targetId permission clock redisNow reply =
          (.error e, tickets) ∨
        service.consume tickets ticket targetType targetId permission clock redisNow reply =
          (.error e, tickets.remove (service.key ticket)))) ∨
    (∃ payload consumed, tickets.get redisNow (service.key ticket) = some payload ∧
      parse payload = some consumed ∧
      service.consume tickets ticket targetType targetId permission clock redisNow reply =
        (RedisWsTicketService.judge consumed targetType targetId permission clock,
          tickets.remove (service.key ticket))) := by
  unfold RedisWsTicketService.consume
  by_cases hform : wellFormed ticket = false
  · exact .inl ⟨.rejected .invalid, rfl, .inl (if_pos hform)⟩
  · rw [if_neg hform]
    cases reply with
    | failed => exact .inl ⟨.unavailable, rfl, .inl rfl⟩
    | lost => exact .inl ⟨.unavailable, rfl, .inr rfl⟩
    | done =>
      cases hget : tickets.get redisNow (service.key ticket) with
      | none => exact .inl ⟨.rejected .replayedOrExpired, rfl, .inl rfl⟩
      | some payload =>
        cases hparse : parse payload with
        | none => exact .inl ⟨.rejected .invalid, rfl, .inr (by simp only [hparse])⟩
        | some consumed => exact .inr ⟨payload, consumed, rfl, hparse, by simp only [hparse]⟩

end CountyFlow.Security
