import Mathlib.Logic.Equiv.Basic
import CountyFlow.Security.Ticket

/-!
# Tickets under way

Any number of calls of `issue` and `consume` on one store.  `issue` draws up to three tickets, each in a
step of its own; `consume` is one step, for its only command is `GETDEL`.  The instants of the service's
clock and of Redis are part of the actions.
-/

namespace CountyFlow.Security

open CountyFlow.Core CountyFlow.Lib Function

/-- A call of `issue`: `attempts` tickets may still be drawn. -/
inductive IssueState where
  | idle
  | drawing (grant : Grant) (attempts : ℕ)
  | returned (result : Except TicketError IssuedWsTicket)

/-- A call of `consume` that has ended. -/
structure Consumption where
  ticket : String
  targetType : String
  targetId : String
  permission : Permission
  clock : Datetime
  result : Except TicketError ConsumedWsTicket

def Consumption.accepted (c : Consumption) : Bool := c.result.isOk

/-- The store and the calls; `drawn` and `granted` keep the tickets that have been drawn and stored,
`consumptions` the calls of `consume` in their order. -/
structure TicketSystem where
  tickets : Tickets
  issues : ℕ → IssueState
  drawn : List String
  granted : List (String × Grant)
  consumptions : List Consumption

inductive TicketAction where
  | issue (p : ℕ) (principal : AuthenticatedPrincipal) (targetType targetId : String)
      (permission : Permission) (now : Datetime)
  | draw (p : ℕ) (ticket : String) (redisNow : ℤ) (reply : RedisReply)
  | consume (ticket targetType targetId : String) (permission : Permission) (clock : Datetime)
      (redisNow : ℤ) (reply : RedisReply)

variable {s s' : TicketSystem} {a : TicketAction} {run : List TicketAction} {c : Consumption}

namespace TicketSystem

variable {service : RedisWsTicketService}

def initial : TicketSystem := ⟨.empty, fun _ => .idle, [], [], []⟩

/-- The state with a call of `issue` moved on. -/
def setIssue (s : TicketSystem) (p : ℕ) (st : IssueState) : TicketSystem :=
  { s with issues := update s.issues p st }

/-- `SET key value EX ttl NX` of a ticket, by a call that has drawn it: the next state of the call, and
whether the document has been stored. -/
def drawOne (service : RedisWsTicketService) (tickets : Tickets) (grant : Grant) (attempts : ℕ)
    (ticket : String) (redisNow : ℤ) (reply : RedisReply) : IssueState × Bool :=
  match reply with
  | .failed => (.returned (.error .unavailable), false)
  | .lost => (.returned (.error .unavailable), (tickets.get redisNow (service.key ticket)).isNone)
  | .done =>
    if (tickets.get redisNow (service.key ticket)).isNone then
      (.returned (.ok (grant.issued ticket)), true)
    else if attempts = 0 then (.returned (.error .unavailable), false)
    else (.drawing grant attempts, false)

/-- The state after an action, `none` when it is not enabled. -/
def step (service : RedisWsTicketService) (s : TicketSystem) : TicketAction → Option TicketSystem
  | .issue p principal targetType targetId permission now =>
    match s.issues p with
    | .idle =>
      match service.grant principal targetType targetId permission now with
      | .error e => some (s.setIssue p (.returned (.error e)))
      | .ok grant => some (s.setIssue p (.drawing grant 3))
    | _ => none
  | .draw p ticket redisNow reply =>
    match s.issues p with
    | .drawing grant (attempts + 1) =>
      let (next, stored) := drawOne service s.tickets grant attempts ticket redisNow reply
      let s := { s with drawn := ticket :: s.drawn }
      if stored then
        some { s.setIssue p next with
          tickets := s.tickets.set (service.key ticket) grant.serialize
            (redisNow + service.ttlSeconds * second)
          granted := (ticket, grant) :: s.granted }
      else some (s.setIssue p next)
    | _ => none
  | .consume ticket targetType targetId permission clock redisNow reply =>
    let (result, tickets) :=
      service.consume s.tickets ticket targetType targetId permission clock redisNow reply
    some { s with
      tickets := tickets
      consumptions := s.consumptions ++ [⟨ticket, targetType, targetId, permission, clock, result⟩] }

def Fresh (s : TicketSystem) : TicketAction → Prop
  | .draw _ ticket _ _ => ticket ∉ s.drawn
  | _ => True

instance (s : TicketSystem) (a : TicketAction) : Decidable (s.Fresh a) := by
  unfold Fresh
  split <;> infer_instance

/-! ### What a step does -/

/-- **Every step**: a call of `issue` has checked its arguments; a ticket is drawn, and stored or not; a
call of `consume` does not have its ticket; or it has read the document and judges it. -/
inductive Moves (service : RedisWsTicketService) (s : TicketSystem) (a : TicketAction) :
    TicketSystem → Prop
  | started {p : ℕ} {st : IssueState} :
      (∀ grant attempts, st = .drawing grant attempts → ∃ principal targetType targetId permission now,
        a = .issue p principal targetType targetId permission now ∧
          service.grant principal targetType targetId permission now = .ok grant) →
      Moves service s a (s.setIssue p st)
  | drew {p : ℕ} {grant : Grant} {attempts : ℕ} {st : IssueState} {ticket : String} :
      s.issues p = .drawing grant attempts →
      (∀ grant' attempts', st = .drawing grant' attempts' → grant' = grant) →
      (s.Fresh a → ticket ∉ s.drawn) →
      Moves service s a ({ s with drawn := ticket :: s.drawn }.setIssue p st)
  | stored {p : ℕ} {grant : Grant} {attempts : ℕ} {st : IssueState} {ticket : String} {deadline : ℤ} :
      s.issues p = .drawing grant attempts →
      (∀ grant' attempts', st ≠ .drawing grant' attempts') → (s.Fresh a → ticket ∉ s.drawn) →
      Moves service s a
        ⟨s.tickets.set (service.key ticket) grant.serialize deadline, update s.issues p st,
          ticket :: s.drawn, (ticket, grant) :: s.granted, s.consumptions⟩
  | missed {tickets : Tickets} {c : Consumption} :
      (∀ k entry, tickets k = some entry → s.tickets k = some entry) → took c.result = false →
      Moves service s a { s with tickets := tickets, consumptions := s.consumptions ++ [c] }
  | read {c : Consumption} {payload : Value} {consumed : ConsumedWsTicket} {deadline : ℤ} :
      s.tickets (service.key c.ticket) = some (payload, deadline) → parse payload = some consumed →
      c.result = RedisWsTicketService.judge consumed c.targetType c.targetId c.permission c.clock →
      Moves service s a { s with
        tickets := s.tickets.remove (service.key c.ticket)
        consumptions := s.consumptions ++ [c] }

theorem of_remove {tickets : Tickets} {k k' : String} {entry : Value × ℤ}
    (h : tickets.remove k k' = some entry) : tickets k' = some entry := by
  rw [Expiring.remove_apply] at h
  by_cases hk : k' = k
  · rw [if_pos hk] at h
    cases h
  · rwa [if_neg hk] at h

/-- All that an action on the tickets can do. -/
theorem step_moves (h : step service s a = some s') : Moves service s a s' := by
  cases a with
  | issue p principal targetType targetId permission now =>
    simp only [step] at h
    split at h
    · split at h
      · cases h
        exact .started (by simp)
      · rename_i grant hgrant
        cases h
        refine .started fun grant' attempts hst => ?_
        obtain ⟨rfl, -⟩ := IssueState.drawing.inj hst
        exact ⟨principal, targetType, targetId, permission, now, rfl, hgrant⟩
    · cases h
  | draw p ticket redisNow reply =>
    simp only [step] at h
    split at h
    · rename_i grant attempts hissue
      split at h
      · rename_i hstored
        cases h
        refine .stored hissue (fun grant' attempts' => ?_) id
        revert hstored
        unfold drawOne
        cases reply with
        | failed => simp
        | lost => simp
        | done => split_ifs <;> simp
      · cases h
        refine .drew hissue (fun grant' attempts' => ?_) id
        unfold drawOne
        cases reply with
        | failed => simp
        | lost => simp
        | done =>
          split_ifs
          · simp
          · simp
          · intro hst
            exact (IssueState.drawing.inj hst).1.symm
    · cases h
  | consume ticket targetType targetId permission clock redisNow reply =>
    simp only [step, Option.some.injEq] at h
    subst h
    rcases consume_cases service s.tickets ticket targetType targetId permission clock redisNow reply with
      ⟨e, htook, hconsume | hconsume⟩ | ⟨payload, consumed, hget, hparse, hconsume⟩
    · rw [hconsume]
      exact .missed (fun _ _ h => h) htook
    · rw [hconsume]
      exact .missed (fun _ _ h => of_remove h) htook
    · rw [hconsume]
      obtain ⟨deadline, hstored, -⟩ := Expiring.get_eq_some.mp hget
      exact .read (c := ⟨ticket, targetType, targetId, permission, clock, _⟩) hstored hparse rfl

/-! ### What holds of the tickets -/

/-- Some call of `issue` in `run` was for this. -/
def AskedIn (service : RedisWsTicketService) (run : List TicketAction) (g : Grant) : Prop :=
  ∃ p principal targetType targetId permission now,
    TicketAction.issue p principal targetType targetId permission now ∈ run ∧
      service.grant principal targetType targetId permission now = .ok g

/-- **An accepted call**: it presented what the ticket was issued for, before its expiry, and returns what
was recorded at issue, where the principal had the permission. -/
def Scoped (service : RedisWsTicketService) (run : List TicketAction) (s : TicketSystem) : Prop :=
  ∀ c ∈ s.consumptions, ∀ result, c.result = .ok result →
    ∃ g, (c.ticket, g) ∈ s.granted ∧ AskedIn service run g ∧ g.principal.can g.permission = true ∧
      c.targetType = g.targetType.value ∧ c.targetId = g.targetId.value ∧ c.permission = g.permission ∧
      c.clock.microseconds < g.expiresAt.microseconds ∧ result = g.consumed

/-- A call that has had the ticket uses it up: no later call is accepted on it, nor has it. -/
def UsesUp (earlier later : Consumption) : Prop :=
  earlier.ticket = later.ticket → took earlier.result = true → took later.result = false

/-- **What holds in every state**, of a run among whose actions the steps are. -/
structure Kept (service : RedisWsTicketService) (run : List TicketAction) (s : TicketSystem) : Prop where
  drawing : ∀ p grant attempts, s.issues p = .drawing grant attempts → AskedIn service run grant
  granted : ∀ t g, (t, g) ∈ s.granted → t ∈ s.drawn ∧ AskedIn service run g
  stored : ∀ t payload deadline, s.tickets (service.key t) = some (payload, deadline) →
    ∃ g, (t, g) ∈ s.granted ∧ payload = g.serialize
  used : ∀ c ∈ s.consumptions, took c.result = true →
    c.ticket ∈ s.drawn ∧ s.tickets (service.key c.ticket) = none
  allowed : Scoped service run s
  once : s.consumptions.Pairwise UsesUp

theorem initial_kept (run : List TicketAction) : Kept service run initial where
  drawing := by simp [initial]
  granted := by simp [initial]
  stored := by simp [initial, Expiring.empty]
  used := by simp [initial]
  allowed := by simp [Scoped, initial]
  once := by simp [initial]

theorem AskedIn.can {g : Grant} (h : AskedIn service run g) : g.principal.can g.permission = true := by
  obtain ⟨p, principal, targetType, targetId, permission, now, -, hgrant⟩ := h
  exact RedisWsTicketService.grant_can hgrant

theorem drawing_update {issues : ℕ → IssueState} {p : ℕ} {st : IssueState}
    (hold : ∀ q grant attempts, issues q = .drawing grant attempts → AskedIn service run grant)
    (hst : ∀ grant attempts, st = .drawing grant attempts → AskedIn service run grant) (q : ℕ) (grant : Grant)
    (attempts : ℕ) (h : update issues p st q = .drawing grant attempts) :
    AskedIn service run grant := by
  by_cases hq : q = p
  · subst hq
    rw [update_self] at h
    exact hst grant attempts h
  · rw [update_of_ne hq] at h
    exact hold q grant attempts h

theorem read_granted (hs : Kept service run s) {payload : Value} {consumed : ConsumedWsTicket} {deadline : ℤ}
    (hstored : s.tickets (service.key c.ticket) = some (payload, deadline))
    (hparse : parse payload = some consumed) : ∃ g, (c.ticket, g) ∈ s.granted ∧ consumed = g.consumed := by
  obtain ⟨g, hg, rfl⟩ := hs.stored c.ticket payload deadline hstored
  rw [parse_serialize] at hparse
  exact ⟨g, hg, (Option.some.inj hparse).symm⟩

/-- What is stored and what was answered stay in accord with the run. -/
theorem step_kept (hdigest : Injective service.digest) (hs : Kept service run s) (hfresh : s.Fresh a)
    (ha : a ∈ run) (h : step service s a = some s') : Kept service run s' := by
  cases step_moves h with
  | @started p st hst =>
    refine ⟨?_, hs.granted, hs.stored, hs.used, hs.allowed, hs.once⟩
    apply drawing_update hs.drawing
    intro grant attempts hdrawing
    obtain ⟨principal, targetType, targetId, permission, now, rfl, hgrant⟩ := hst grant attempts hdrawing
    exact ⟨p, principal, targetType, targetId, permission, now, ha, hgrant⟩
  | @drew p grant attempts st ticket hissue hst _ =>
    refine ⟨?_, ?_, hs.stored, ?_, hs.allowed, hs.once⟩
    · apply drawing_update hs.drawing
      intro grant' attempts' hdrawing
      rw [hst grant' attempts' hdrawing]
      exact hs.drawing p grant attempts hissue
    · intro t g hg
      exact ⟨List.mem_cons_of_mem _ (hs.granted t g hg).1, (hs.granted t g hg).2⟩
    · intro c hc htook
      exact ⟨List.mem_cons_of_mem _ (hs.used c hc htook).1, (hs.used c hc htook).2⟩
  | @stored p grant attempts st ticket deadline hissue hst hnew =>
    have hasked := hs.drawing p grant attempts hissue
    refine ⟨?_, ?_, ?_, ?_, ?_, hs.once⟩
    · apply drawing_update hs.drawing
      intro grant' attempts' hdrawing
      exact absurd hdrawing (hst grant' attempts')
    · intro t g hg
      rcases List.mem_cons.mp hg with hnew | hg
      · obtain ⟨rfl, rfl⟩ := Prod.mk.inj hnew
        exact ⟨List.mem_cons_self, hasked⟩
      · exact ⟨List.mem_cons_of_mem _ (hs.granted t g hg).1, (hs.granted t g hg).2⟩
    · intro t payload deadline' hentry
      change s.tickets.set _ _ _ _ = _ at hentry
      rw [Expiring.set_apply] at hentry
      by_cases hkey : service.key t = service.key ticket
      · rw [if_pos hkey] at hentry
        obtain rfl := RedisWsTicketService.key_injective hdigest hkey
        obtain ⟨rfl, -⟩ := Prod.mk.inj (Option.some.inj hentry)
        exact ⟨grant, List.mem_cons_self, rfl⟩
      · rw [if_neg hkey] at hentry
        obtain ⟨g, hg, hpayload⟩ := hs.stored t payload deadline' hentry
        exact ⟨g, List.mem_cons_of_mem _ hg, hpayload⟩
    · intro c hc htook
      obtain ⟨hdrawn, hnone⟩ := hs.used c hc htook
      refine ⟨List.mem_cons_of_mem _ hdrawn, ?_⟩
      -- a used ticket has been drawn, so that the new one is another
      have hkey : ¬ service.key c.ticket = service.key ticket := by
        intro hkey
        obtain hsame := RedisWsTicketService.key_injective hdigest hkey
        exact hnew hfresh (hsame ▸ hdrawn)
      show s.tickets.set _ _ _ _ = _
      rw [Expiring.set_apply, if_neg hkey]
      exact hnone
    · intro c hc result hok
      obtain ⟨g, hg, hrest⟩ := hs.allowed c hc result hok
      exact ⟨g, List.mem_cons_of_mem _ hg, hrest⟩
  | @missed tickets c hsub htook =>
    refine ⟨hs.drawing, hs.granted, ?_, ?_, ?_, ?_⟩
    · intro t payload deadline hentry
      exact hs.stored t payload deadline (hsub _ _ hentry)
    · intro c' hc' htook'
      rcases List.mem_append.mp hc' with hc' | hc'
      · obtain ⟨hdrawn, hnone⟩ := hs.used c' hc' htook'
        refine ⟨hdrawn, Option.eq_none_iff_forall_ne_some.mpr fun entry hentry => ?_⟩
        rw [hsub _ _ hentry] at hnone
        cases hnone
      · obtain rfl := List.mem_singleton.mp hc'
        rw [htook] at htook'
        cases htook'
    · intro c' hc' result hok
      rcases List.mem_append.mp hc' with hc' | hc'
      · exact hs.allowed c' hc' result hok
      · obtain rfl := List.mem_singleton.mp hc'
        rw [hok] at htook
        cases htook
    · refine List.pairwise_append.mpr ⟨hs.once, List.pairwise_singleton _ _, ?_⟩
      intro c' _ c'' hc'' _ _
      obtain rfl := List.mem_singleton.mp hc''
      exact htook
  | @read c payload consumed deadline hstored hparse hresult =>
    obtain ⟨g, hg, rfl⟩ := read_granted hs hstored hparse
    obtain ⟨hdrawn, hasked⟩ := hs.granted c.ticket g hg
    have hgone (k : String) : k = service.key c.ticket →
      s.tickets.remove (service.key c.ticket) k = none := by
      intro hk
      rw [Expiring.remove_apply, if_pos hk]
    refine ⟨hs.drawing, hs.granted, ?_, ?_, ?_, ?_⟩
    · intro t payload' deadline' hentry
      exact hs.stored t payload' deadline' (of_remove hentry)
    · intro c' hc' htook
      rcases List.mem_append.mp hc' with hc' | hc'
      · obtain ⟨hdrawn', hnone⟩ := hs.used c' hc' htook
        refine ⟨hdrawn', Option.eq_none_iff_forall_ne_some.mpr fun entry hentry => ?_⟩
        rw [of_remove hentry] at hnone
        cases hnone
      · obtain rfl := List.mem_singleton.mp hc'
        exact ⟨hdrawn, hgone _ rfl⟩
    · intro c' hc' result hok
      rcases List.mem_append.mp hc' with hc' | hc'
      · exact hs.allowed c' hc' result hok
      · obtain rfl := List.mem_singleton.mp hc'
        rw [hresult] at hok
        obtain ⟨rfl, htype, hid, hpermission, hclock⟩ := judge_ok hok
        exact ⟨g, hg, hasked, hasked.can, htype.symm, hid.symm, hpermission.symm, hclock, rfl⟩
    · refine List.pairwise_append.mpr ⟨hs.once, List.pairwise_singleton _ _, ?_⟩
      intro c' hc' c'' hc'' hticket htook
      obtain rfl := List.mem_singleton.mp hc''
      -- an earlier call has had the ticket: it would be gone
      have hnone := (hs.used c' hc' htook).2
      rw [hticket, hstored] at hnone
      cases hnone

theorem kept_of_run (hdigest : Injective service.digest)
    (hfresh : Meets (step service) Fresh initial run)
    (hrun : exec (step service) initial run = some s) : Kept service run s := by
  have hmem : Meets (step service) (fun _ a => a ∈ run) initial run := meets_of_mem (fun _ h => h) _
  exact exec_invariant (fun s a s' hs hok h => step_kept hdigest hs hok.1 hok.2 h) (hfresh.and hmem) hrun
    (initial_kept run)

/-! ### Once -/

theorem countP_le_one {α : Type} {p : α → Bool} {l : List α}
    (h : l.Pairwise fun a b => p a = true → p b = false) : l.countP p ≤ 1 := by
  induction l with
  | nil => simp
  | cons a l ih =>
    obtain ⟨ha, hl⟩ := List.pairwise_cons.mp h
    by_cases hp : p a = true
    · have hnone : l.countP p = 0 := by
        apply List.countP_eq_zero.mpr
        intro b hb
        simp [ha b hb hp]
      rw [List.countP_cons_of_pos hp]
      omega
    · rw [List.countP_cons_of_neg hp]
      exact ih hl

theorem took_of_accepted (h : c.accepted = true) : took c.result = true := by
  unfold Consumption.accepted at h
  cases hresult : c.result with
  | ok result => rfl
  | error e =>
    rw [hresult] at h
    cases h

/-- **Tickets are single-use and scoped**: along every run each ticket is accepted at most once, for what
it was issued for, before it expires, with what was recorded at issue; and a call that has had the
ticket, accepted or rejected for its scope or its permission, uses it up. -/
theorem tickets_once_and_scoped (hdigest : Injective service.digest) {run : List TicketAction}
    {s : TicketSystem} (hfresh : Meets (step service) Fresh initial run)
    (hrun : exec (step service) initial run = some s) :
    (∀ ticket, s.consumptions.countP (fun c => c.ticket = ticket ∧ c.accepted = true) ≤ 1) ∧
      Scoped service run s ∧
      s.consumptions.Pairwise fun earlier later => earlier.ticket = later.ticket →
        earlier.result.isOk = true ∨ earlier.result = .error (.rejected .wrongScope) ∨
          earlier.result = .error (.rejected .permissionDenied) → later.accepted = false := by
  have hkept := kept_of_run hdigest hfresh hrun
  have hrejected {c : Consumption} (h : took c.result = false) : c.accepted = false := by
    cases haccepted : c.accepted with
    | false => rfl
    | true =>
      rw [took_of_accepted haccepted] at h
      cases h
  refine ⟨fun ticket => ?_, hkept.allowed, ?_⟩
  · apply countP_le_one
    refine hkept.once.imp fun {earlier later} huses hearlier => ?_
    simp only [decide_eq_true_eq] at hearlier
    simp only [decide_eq_false_iff_not, not_and, Bool.not_eq_true]
    intro hlater
    exact hrejected (huses (hearlier.1.trans hlater.symm) (took_of_accepted hearlier.2))
  · refine hkept.once.imp fun {earlier later} huses hticket hearlier => ?_
    apply hrejected
    apply huses hticket
    rcases hearlier with hok | hscope | hpermission
    · exact took_of_accepted hok
    · rw [hscope]
      rfl
    · rw [hpermission]
      rfl

/-! ### A ticket that is presented twice -/

/-- A service whose digest is right about one ticket. -/
def oneTicketService : RedisWsTicketService where
  namespace_ := "countyflow:auth:ws-ticket"
  digest := Equiv.swap "dGhpcy1pcy1hLXNpbmdsZS11c2Utd3MtdGlja2V0LTE"
    "287184c460a7b29b5d8bab0d0cd9d46c03c373c780369ca9463e4ffa2ef6ebd0"
  ttlSeconds := 45
  bounded := by decide

/-- An employee, who may read dispatches. -/
def employee : AuthenticatedPrincipal where
  subjectId := ⟨"dev-employee", by decide +kernel, by decide, by decide⟩
  displayName := ⟨"dev-employee", by decide +kernel, by decide, by decide⟩
  roles := [.employee]
  permissions := rolePermissionMatrix .employee
  authMethod := .developmentJwt
  issuedAt := 0
  expiresAt := 600 * second
  jti := ⟨"session-1", by decide +kernel, by decide, by decide⟩
  issued_lt_expires := by decide

def atSecond (n : ℕ) (h : n * 1000000 < endOfTime) : Datetime := ⟨n * 1000000, h⟩

def presentTwice : List TicketAction :=
  [.issue 0 employee "task" " TASK-1 " .dispatchRead (atSecond 100 (by decide)),
    .draw 0 "dGhpcy1pcy1hLXNpbmdsZS11c2Utd3MtdGlja2V0LTE" (100 * second) .done,
    .consume "dGhpcy1pcy1hLXNpbmdsZS11c2Utd3MtdGlja2V0LTE" "task" "TASK-1" .dispatchRead
      (atSecond 110 (by decide)) (110 * second) .done,
    .consume "dGhpcy1pcy1hLXNpbmdsZS11c2Utd3MtdGlja2V0LTE" "task" "TASK-1" .dispatchRead
      (atSecond 111 (by decide)) (111 * second) .done]

theorem tickets_once_and_scoped_presentTwice :
    ∃ s, exec (step oneTicketService) initial presentTwice = some s ∧
      s.consumptions.map Consumption.accepted = [true, false] ∧ Scoped oneTicketService presentTwice s := by
  have hmap : (exec (step oneTicketService) initial presentTwice).map
      (fun s => s.consumptions.map Consumption.accepted) = some [true, false] := by decide +kernel
  have hfresh : Meets (step oneTicketService) Fresh initial presentTwice := by decide +kernel
  obtain ⟨s, hrun, haccepted⟩ := Option.map_eq_some_iff.mp hmap
  exact ⟨s, hrun, haccepted,
    (tickets_once_and_scoped (Equiv.swap _ _).injective hfresh hrun).2.1⟩

end TicketSystem

end CountyFlow.Security
