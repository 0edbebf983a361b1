import Mathlib.Data.Prod.Lex
import Mathlib.Order.Basic
import CountyFlow.Events.Event
import CountyFlow.Lib.Runs
import CountyFlow.Security.Revocation

/-!
# The stream of a task

`RedisTaskEventBroker` of `app/events/broker.py`, on the keys of one task: calls of `publish` by any
number of processes, each drawing a number by `INCR` in one step and appending its entry by `XADD` in
another, and readers of the history and of subscriptions.  `XADD` may drop entries from the front, down
to the configured length.
-/

namespace CountyFlow.Events

open CountyFlow.Core CountyFlow.Lib Function
open CountyFlow.Security (RedisReply)

/-- The id of a stream entry: milliseconds, and a number among those of a millisecond. -/
abbrev StreamId := ℕ ×ₗ ℕ

def idText (id : StreamId) : String := toString (ofLex id).1 ++ "-" ++ toString (ofLex id).2

/-- The exceptions of the broker, and the `TypeError` of `json.dumps`. -/
inductive BrokerError where
  | connection
  | message (text : String)
  | typeError
  deriving DecidableEq, Repr

/-- A call of `publish`: the event carries its number once that is drawn. -/
inductive PublishState where
  | idle
  | drawn (event : TaskEvent)
  | appended (event : TaskEvent) (result : Except BrokerError TaskEvent)
  | failed (error : BrokerError)

def PublishState.numbered : PublishState → Option TaskEvent
  | .drawn event | .appended event _ => some event
  | .idle | .failed _ => none

/-- The event of a call that has appended its entry. -/
def PublishState.entered : PublishState → Option TaskEvent
  | .appended event _ => some event
  | .idle | .drawn _ | .failed _ => none

variable {st : PublishState} {event : TaskEvent}

theorem PublishState.numbered_of_entered (h : st.entered = some event) : st.numbered = some event := by
  cases st with
  | appended e result => exact h
  | idle => cases h
  | drawn e => cases h
  | failed e => cases h

/-- `RedisTaskEventSubscription`, with the events it has read. -/
structure Subscription where
  cursor : StreamId
  seen : List TaskEvent

/-- The keys of a task and its calls; `log` keeps every entry that has been appended. -/
structure TaskStream where
  sequence : ℤ
  entries : List (StreamId × State)
  lastId : StreamId
  calls : ℕ → PublishState
  subscriptions : ℕ → Option Subscription
  log : List (StreamId × TaskEvent)

inductive StreamAction where
  | incr (p : ℕ) (event : TaskEvent) (reply : RedisReply)
  | xadd (p : ℕ) (id : StreamId) (dropped : ℕ) (reply : RedisReply)
  | subscribe (r : ℕ) (cursor : StreamId)
  | read (r : ℕ)

/-- `_events`. -/
def eventsOf (entries : List (StreamId × State)) : Except BrokerError (List TaskEvent) :=
  entries.mapM fun entry =>
    match TaskEvent.fromDict entry.2 with
    | .ok event => .ok (event.withEventId (idText entry.1))
    | .error _ => .error (.message "Task event data is invalid.")

variable {s' : TaskStream} {a : StreamAction} {α κ : Type} {calls : ℕ → PublishState} {p q : ℕ}

namespace TaskStream

variable {maxlen : ℕ}

def initial : TaskStream := ⟨0, [], toLex (0, 0), fun _ => .idle, fun _ => none, []⟩

/-- `history`; ids are compared as texts. -/
def history (s : TaskStream) (afterEventId : Option String) : Except BrokerError (List TaskEvent) :=
  match eventsOf s.entries with
  | .error e => .error e
  | .ok events =>
    match afterEventId with
    | none => .ok events
    | some after => .ok (events.filter fun event => after < event.eventId)

/-- The state with a call of `publish` moved on. -/
def setCall (s : TaskStream) (p : ℕ) (st : PublishState) : TaskStream :=
  { s with calls := update s.calls p st }

/-- The state with a subscription moved on. -/
def setSubscription (s : TaskStream) (r : ℕ) (subscription : Subscription) : TaskStream :=
  { s with subscriptions := update s.subscriptions r (some subscription) }

def draw (s : TaskStream) (p : ℕ) (event : TaskEvent) : RedisReply → TaskStream
  | .failed => s.setCall p (.failed .connection)
  | .lost => { s with sequence := s.sequence + 1 }.setCall p (.failed .connection)
  | .done =>
    let s := { s with sequence := s.sequence + 1 }
    if State.jsonSerializable (event.data.getD []) then
      s.setCall p (.drawn (event.withSequence s.sequence))
    else s.setCall p (.failed .typeError)

/-- An entry is appended, and entries may be dropped from the front. -/
def append (s : TaskStream) (p : ℕ) (event : TaskEvent) (id : StreamId) (dropped : ℕ)
    (result : Except BrokerError TaskEvent) : TaskStream :=
  { s with
    entries := (s.entries ++ [(id, event.toDict)]).drop dropped
    lastId := id
    calls := update s.calls p (.appended event result)
    log := s.log ++ [(id, event)] }

def readAfter (s : TaskStream) (r : ℕ) (subscription : Subscription) : TaskStream :=
  let entries := s.entries.filter fun entry => subscription.cursor < entry.1
  match eventsOf entries with
  | .error _ => s
  | .ok events =>
    s.setSubscription r
      ⟨(entries.getLast?.map Prod.fst).getD subscription.cursor, subscription.seen ++ events⟩

/-- The state after an action, `none` when it is not enabled. -/
def step (maxlen : ℕ) (s : TaskStream) : StreamAction → Option TaskStream
  | .incr p event reply =>
    match s.calls p with
    | .idle => some (s.draw p event reply)
    | _ => none
  | .xadd p id dropped reply =>
    match s.calls p with
    | .drawn event =>
      if s.lastId < id ∧ (dropped = 0 ∨ maxlen + dropped ≤ s.entries.length + 1) then
        match reply with
        | .failed => some (s.setCall p (.failed .connection))
        | .done => some (s.append p event id dropped (.ok (event.withEventId (idText id))))
        | .lost => some (s.append p event id dropped (.error .connection))
      else none
    | _ => none
  | .subscribe r cursor =>
    some (s.setSubscription r ⟨cursor, []⟩)
  | .read r =>
    match s.subscriptions r with
    | none => none
    | some subscription => some (s.readAfter r subscription)

/-- **The condition**: a call that appends its entry has not been overtaken: no call that drew a larger
number has appended before. -/
def NotOvertaken (s : TaskStream) : StreamAction → Prop
  | .xadd p _ _ reply => reply ≠ .failed → ∀ event, s.calls p = .drawn event →
      ∀ q event', (s.calls q).entered = some event' → ¬ event.sequence < event'.sequence
  | _ => True

/-- The entries that have been appended are numbered in order. -/
def InOrder (s : TaskStream) : Prop := s.log.Pairwise fun x y => x.2.sequence < y.2.sequence

/-! ### What a step does -/

/-- **Every step**: nothing is appended, and at most a fresh number is drawn; an entry is appended; or
a subscription moves. -/
inductive Moves (s : TaskStream) (a : StreamAction) : TaskStream → Prop
  | numbered {p : ℕ} {event : TaskEvent} : s.calls p = .idle → s.NotOvertaken a →
      event.sequence = s.sequence + 1 →
      Moves s a ({ s with sequence := s.sequence + 1 }.setCall p (.drawn event))
  | failed {p : ℕ} {error : BrokerError} (sequence : ℤ) : (s.calls p).entered = none →
      s.NotOvertaken a → s.sequence ≤ sequence →
      Moves s a ({ s with sequence := sequence }.setCall p (.failed error))
  | appended {p : ℕ} {event : TaskEvent} {id : StreamId} {dropped : ℕ}
      {result : Except BrokerError TaskEvent} : s.calls p = .drawn event → s.lastId < id →
      (s.NotOvertaken a ↔
        ∀ q event', (s.calls q).entered = some event' → ¬ event.sequence < event'.sequence) →
      Moves s a (s.append p event id dropped result)
  | subscribed {r : ℕ} {cursor : StreamId} : s.NotOvertaken a →
      Moves s a (s.setSubscription r ⟨cursor, []⟩)
  | read {r : ℕ} {subscription : Subscription} : s.NotOvertaken a →
      s.subscriptions r = some subscription → Moves s a (s.readAfter r subscription)

variable {s : TaskStream}

/-- All that an action of the broker can do. -/
theorem step_moves (h : step maxlen s a = some s') : Moves s a s' := by
  cases a with
  | incr p event reply =>
    simp only [step] at h
    split at h
    · rename_i hidle
      cases h
      have hentered : (s.calls p).entered = none := by rw [hidle]; rfl
      cases reply with
      | failed => exact .failed s.sequence hentered trivial le_rfl
      | lost => exact .failed (s.sequence + 1) hentered trivial (by omega)
      | done =>
        unfold draw
        dsimp only
        split
        · exact .numbered hidle trivial rfl
        · exact .failed (s.sequence + 1) hentered trivial (by omega)
    · cases h
  | xadd p id dropped reply =>
    simp only [step] at h
    split at h
    · rename_i event hdrawn
      have hexact (hreply : reply ≠ .failed) : s.NotOvertaken (.xadd p id dropped reply) ↔
          ∀ q event', (s.calls q).entered = some event' → ¬ event.sequence < event'.sequence := by
        simp [NotOvertaken, hreply, hdrawn]
      split at h
      · rename_i hguard
        cases reply with
        | failed =>
          cases h
          refine .failed s.sequence (by rw [hdrawn]; rfl) ?_ le_rfl
          intro hreply
          exact absurd rfl hreply
        | done =>
          cases h
          exact .appended hdrawn hguard.1 (hexact (by simp))
        | lost =>
          cases h
          exact .appended hdrawn hguard.1 (hexact (by simp))
      · cases h
    · cases h
  | subscribe r cursor =>
    cases h
    exact .subscribed trivial
  | read r =>
    simp only [step] at h
    split at h
    · cases h
    · rename_i subscription hsubscription
      cases h
      exact .read trivial hsubscription

/-! ### What holds of the stream -/

def entryOf (x : StreamId × TaskEvent) : StreamId × State := (x.1, x.2.toDict)

/-- What a reader makes of an entry. -/
def view (x : StreamId × TaskEvent) : TaskEvent := x.2.stored.withEventId (idText x.1)

theorem eventsOf_entries (xs : List (StreamId × TaskEvent)) :
    eventsOf (xs.map entryOf) = .ok (xs.map view) := by
  unfold eventsOf
  induction xs with
  | nil => rfl
  | cons x xs ih =>
    rw [List.map_cons, List.mapM_cons, ih]
    simp only [entryOf, TaskEvent.fromDict_toDict]
    rfl

/-- **What holds in every state**: every call has a number of its own; the entries that have been appended
are those of the calls that have, with ids in order; the stream is the end of them; and a subscription
has seen some of them, in their order. -/
structure Kept (s : TaskStream) : Prop where
  bounded : ∀ p event, (s.calls p).numbered = some event → event.sequence ≤ s.sequence
  distinct : ∀ p q event event', p ≠ q → (s.calls p).numbered = some event →
    (s.calls q).numbered = some event' → event.sequence ≠ event'.sequence
  entered : ∀ x ∈ s.log, ∃ q, (s.calls q).entered = some x.2
  logged : ∀ q event, (s.calls q).entered = some event → ∃ x ∈ s.log, x.2 = event
  ids : s.log.Pairwise fun x y => x.1 < y.1
  last : ∀ x ∈ s.log, x.1 ≤ s.lastId
  suffix : ∃ front xs, s.log = front ++ xs ∧ s.entries = xs.map entryOf
  seen : ∀ r subscription, s.subscriptions r = some subscription →
    List.Sublist subscription.seen ((s.log.filter fun x => x.1 ≤ subscription.cursor).map view)

theorem initial_kept : Kept initial where
  bounded := by simp [initial, PublishState.numbered]
  distinct := by simp [initial, PublishState.numbered]
  entered := by simp [initial]
  logged := by simp [initial, PublishState.entered]
  ids := by simp [initial]
  last := by simp [initial]
  suffix := ⟨[], [], rfl, rfl⟩
  seen := by simp [initial]

theorem filter_append_filter [LinearOrder κ] (f : α → κ) (c : κ) {l : List α}
    (h : l.Pairwise fun x y => f x < f y) :
    (l.filter fun x => f x ≤ c) ++ (l.filter fun x => c < f x) = l := by
  induction l with
  | nil => rfl
  | cons a l ih =>
    obtain ⟨ha, hl⟩ := List.pairwise_cons.mp h
    by_cases hc : f a ≤ c
    · have hnot : ¬ c < f a := not_lt.mpr hc
      rw [List.filter_cons_of_pos (by simpa using hc), List.filter_cons_of_neg (by simpa using hc),
        List.cons_append, ih hl]
    · have hlt : c < f a := not_le.mp hc
      have hnone : (l.filter fun x => f x ≤ c) = [] := by
        apply List.filter_eq_nil_iff.mpr
        intro x hx
        simpa using hlt.trans (ha x hx)
      have hall : (l.filter fun x => c < f x) = l := by
        apply List.filter_eq_self.mpr
        intro x hx
        simpa using hlt.trans (ha x hx)
      rw [List.filter_cons_of_neg (by simpa using hc), List.filter_cons_of_pos (by simpa using hlt),
        hnone, hall, List.nil_append]

theorem le_getLast [LinearOrder κ] (f : α → κ) {l : List α} {x : α} (h : l.Pairwise fun x y => f x < f y)
    (hlast : l.getLast? = some x) : ∀ y ∈ l, f y ≤ f x := by
  obtain ⟨init, rfl⟩ := List.getLast?_eq_some_iff.mp hlast
  intro y hy
  rcases List.mem_append.mp hy with hy | hy
  · exact ((List.pairwise_append.mp h).2.2 y hy x (by simp)).le
  · rw [List.mem_singleton.mp hy]

theorem seen_readAfter (hs : Kept s) {r : ℕ} {subscription : Subscription}
    (hr : s.subscriptions r = some subscription) :
    ∃ cursor events,
      s.readAfter r subscription = s.setSubscription r ⟨cursor, subscription.seen ++ events⟩ ∧
      List.Sublist (subscription.seen ++ events) ((s.log.filter fun x => x.1 ≤ cursor).map view) := by
  obtain ⟨front, xs, hlog, hentries⟩ := hs.suffix
  have hfilter : (s.entries.filter fun entry => subscription.cursor < entry.1) =
      (xs.filter fun x => subscription.cursor < x.1).map entryOf := by
    rw [hentries, List.filter_map]
    rfl
  have hread := eventsOf_entries (xs.filter fun x => subscription.cursor < x.1)
  have hseen := hs.seen r subscription hr
  generalize hnew : (xs.filter fun x => subscription.cursor < x.1) = new at hfilter hread
  refine ⟨(((new.map entryOf).getLast?).map Prod.fst).getD subscription.cursor, new.map view, ?_, ?_⟩
  · simp only [readAfter, hfilter, hread]
  · cases hlast : new.getLast? with
    | none =>
      obtain rfl := List.getLast?_eq_none_iff.mp hlast
      simpa using hseen
    | some x =>
      -- everything appended so far has an id up to that of the last entry read
      have hx : x ∈ xs ∧ subscription.cursor < x.1 := by
        have hmem : x ∈ new := List.mem_of_getLast? hlast
        rw [← hnew] at hmem
        simpa using List.mem_filter.mp hmem
      have hids := hs.ids
      rw [hlog] at hids
      obtain ⟨-, hxs, hfront⟩ := List.pairwise_append.mp hids
      have hall : (s.log.filter fun y => y.1 ≤ x.1) = s.log := by
        apply List.filter_eq_self.mpr
        intro y hy
        rw [hlog] at hy
        rw [decide_eq_true_eq]
        rcases List.mem_append.mp hy with hy | hy
        · exact (hfront y hy x hx.1).le
        · by_cases hc : y.1 ≤ subscription.cursor
          · exact hc.trans hx.2.le
          · have hnew' : new.Pairwise fun x y => x.1 < y.1 := by
              rw [← hnew]
              exact hxs.filter _
            apply le_getLast Prod.fst hnew' hlast
            rw [← hnew]
            exact List.mem_filter.mpr ⟨hy, by simpa using hc⟩
      have hcursor : (((new.map entryOf).getLast?).map Prod.fst).getD subscription.cursor = x.1 := by
        rw [List.getLast?_map, hlast]
        rfl
      rw [hcursor, hall, ← filter_append_filter Prod.fst subscription.cursor hs.ids, List.map_append]
      apply hseen.append
      apply List.Sublist.map
      rw [← hnew, hlog, List.filter_append]
      exact List.sublist_append_right _ _

theorem numbered_setCall (h : (update calls p st q).numbered = some event) :
    q = p ∧ st.numbered = some event ∨ q ≠ p ∧ (calls q).numbered = some event := by
  by_cases hq : q = p
  · subst hq
    rw [update_self] at h
    exact .inl ⟨rfl, h⟩
  · rw [update_of_ne hq] at h
    exact .inr ⟨hq, h⟩

theorem entered_setCall (h : (update calls p st q).entered = some event) :
    q = p ∧ st.entered = some event ∨ q ≠ p ∧ (calls q).entered = some event := by
  by_cases hq : q = p
  · subst hq
    rw [update_self] at h
    exact .inl ⟨rfl, h⟩
  · rw [update_of_ne hq] at h
    exact .inr ⟨hq, h⟩

theorem entered_of_ne (hp : (calls p).entered = none) (hq : (calls q).entered = some event) :
    (update calls p st q).entered = some event := by
  have hne : q ≠ p := by
    intro h
    subst h
    rw [hp] at hq
    cases hq
  rwa [update_of_ne hne]

/-- The numbers, the log and what was seen of it stay in accord, one case per action. -/
theorem step_kept (hs : Kept s) (h : step maxlen s a = some s') : Kept s' := by
  cases step_moves h with
  | @numbered p event hidle _ hsequence =>
    have hnone : (s.calls p).entered = none := by rw [hidle]; rfl
    refine ⟨?_, ?_, ?_, ?_, hs.ids, hs.last, hs.suffix, hs.seen⟩
    · intro q event' hq
      show event'.sequence ≤ s.sequence + 1
      rcases numbered_setCall hq with ⟨-, hevent⟩ | ⟨-, hq⟩
      · cases hevent
        exact hsequence.le
      · exact (hs.bounded q event' hq).trans (by omega)
    · intro q r event' event'' hne hq hr
      rcases numbered_setCall hq with ⟨rfl, hevent⟩ | ⟨-, hq⟩
      · cases hevent
        rcases numbered_setCall hr with ⟨rfl, -⟩ | ⟨-, hr⟩
        · exact absurd rfl hne
        · have hle := hs.bounded r event'' hr
          omega
      · rcases numbered_setCall hr with ⟨-, hevent⟩ | ⟨-, hr⟩
        · cases hevent
          have hle := hs.bounded q event' hq
          omega
        · exact hs.distinct q r event' event'' hne hq hr
    · intro x hx
      obtain ⟨q, hq⟩ := hs.entered x hx
      exact ⟨q, entered_of_ne hnone hq⟩
    · intro q event' hq
      rcases entered_setCall hq with ⟨-, hevent⟩ | ⟨-, hq⟩
      · cases hevent
      · exact hs.logged q event' hq
  | @failed p error sequence hnone _ hsequence =>
    refine ⟨?_, ?_, ?_, ?_, hs.ids, hs.last, hs.suffix, hs.seen⟩
    · intro q event' hq
      show event'.sequence ≤ sequence
      rcases numbered_setCall hq with ⟨-, hevent⟩ | ⟨-, hq⟩
      · cases hevent
      · exact (hs.bounded q event' hq).trans hsequence
    · intro q r event' event'' hne hq hr
      rcases numbered_setCall hq with ⟨-, hevent⟩ | ⟨-, hq⟩
      · cases hevent
      · rcases numbered_setCall hr with ⟨-, hevent⟩ | ⟨-, hr⟩
        · cases hevent
        · exact hs.distinct q r event' event'' hne hq hr
    · intro x hx
      obtain ⟨q, hq⟩ := hs.entered x hx
      exact ⟨q, entered_of_ne hnone hq⟩
    · intro q event' hq
      rcases entered_setCall hq with ⟨-, hevent⟩ | ⟨-, hq⟩
      · cases hevent
      · exact hs.logged q event' hq
  | @appended p event id dropped result hdrawn hid _ =>
    have hnone : (s.calls p).entered = none := by rw [hdrawn]; rfl
    have hnumbered (q : ℕ) (event' : TaskEvent)
        (hq : (update s.calls p (.appended event result) q).numbered = some event') :
        (s.calls q).numbered = some event' := by
      rcases numbered_setCall hq with ⟨rfl, hevent⟩ | ⟨-, hq⟩
      · rw [hdrawn]
        exact hevent
      · exact hq
    refine ⟨fun q event' hq => hs.bounded q event' (hnumbered q event' hq),
      fun q r event' event'' hne hq hr => hs.distinct q r event' event'' hne (hnumbered q event' hq)
        (hnumbered r event'' hr), ?_, ?_, ?_, ?_, ?_, ?_⟩
    · intro x hx
      rcases List.mem_append.mp hx with hx | hx
      · obtain ⟨q, hq⟩ := hs.entered x hx
        exact ⟨q, entered_of_ne hnone hq⟩
      · rw [List.mem_singleton.mp hx]
        refine ⟨p, ?_⟩
        show (update s.calls p _ p).entered = _
        rw [update_self]
        rfl
    · intro q event' hq
      rcases entered_setCall hq with ⟨-, hevent⟩ | ⟨-, hq⟩
      · exact ⟨(id, event), by simp [append], Option.some.inj hevent⟩
      · obtain ⟨x, hx, hevent⟩ := hs.logged q event' hq
        exact ⟨x, List.mem_append_left _ hx, hevent⟩
    · refine List.pairwise_append.mpr ⟨hs.ids, List.pairwise_singleton _ _, ?_⟩
      intro x hx y hy
      rw [List.mem_singleton.mp hy]
      exact (hs.last x hx).trans_lt hid
    · intro x hx
      rcases List.mem_append.mp hx with hx | hx
      · exact (hs.last x hx).trans hid.le
      · rw [List.mem_singleton.mp hx]
        exact le_refl id
    · obtain ⟨front, xs, hlog, hentries⟩ := hs.suffix
      refine ⟨front ++ (xs ++ [(id, event)]).take dropped, (xs ++ [(id, event)]).drop dropped, ?_, ?_⟩
      · show s.log ++ [(id, event)] = _
        rw [hlog, List.append_assoc, List.append_assoc, List.take_append_drop]
      · show (s.entries ++ [(id, event.toDict)]).drop dropped = _
        rw [hentries, List.map_drop, List.map_append]
        rfl
    · intro r subscription hr
      apply (hs.seen r subscription hr).trans
      apply List.Sublist.map
      show List.Sublist _ ((s.log ++ [(id, event)]).filter _)
      rw [List.filter_append]
      exact List.sublist_append_left _ _
  | @subscribed r cursor _ =>
    refine ⟨hs.bounded, hs.distinct, hs.entered, hs.logged, hs.ids, hs.last, hs.suffix, ?_⟩
    intro r' subscription hr'
    change update s.subscriptions r _ r' = _ at hr'
    by_cases hne : r' = r
    · subst hne
      rw [update_self] at hr'
      cases hr'
      exact List.nil_sublist _
    · rw [update_of_ne hne] at hr'
      exact hs.seen r' subscription hr'
  | @read r subscription _ hr =>
    obtain ⟨cursor, events, hread, hsublist⟩ := seen_readAfter hs hr
    rw [hread]
    refine ⟨hs.bounded, hs.distinct, hs.entered, hs.logged, hs.ids, hs.last, hs.suffix, ?_⟩
    intro r' subscription' hr'
    change update s.subscriptions r _ r' = _ at hr'
    by_cases hne : r' = r
    · subst hne
      rw [update_self] at hr'
      cases hr'
      exact hsublist
    · rw [update_of_ne hne] at hr'
      exact hs.seen r' subscription' hr'

theorem readAfter_log (s : TaskStream) (r : ℕ) (subscription : Subscription) :
    (s.readAfter r subscription).log = s.log := by
  unfold readAfter
  dsimp only
  split <;> rfl

/-- The stream stays in order exactly if no append is overtaken. -/
theorem step_inOrder (hs : Kept s) (horder : s.InOrder)
    (h : step maxlen s a = some s') : s.NotOvertaken a ↔ s'.InOrder := by
  cases step_moves h with
  | numbered _ hcondition _ => exact ⟨fun _ => horder, fun _ => hcondition⟩
  | failed _ _ hcondition _ => exact ⟨fun _ => horder, fun _ => hcondition⟩
  | subscribed hcondition => exact ⟨fun _ => horder, fun _ => hcondition⟩
  | @read r subscription hcondition _ =>
    refine ⟨fun _ => ?_, fun _ => hcondition⟩
    unfold InOrder
    rw [readAfter_log]
    exact horder
  | @appended p event id dropped result hdrawn _ hcondition =>
    rw [hcondition]
    constructor
    · intro hnot
      refine List.pairwise_append.mpr ⟨horder, List.pairwise_singleton _ _, ?_⟩
      intro x hx y hy
      rw [List.mem_singleton.mp hy]
      obtain ⟨q, hq⟩ := hs.entered x hx
      have hne : q ≠ p := by
        intro h
        subst h
        rw [hdrawn] at hq
        cases hq
      have hdistinct := hs.distinct q p x.2 event hne (PublishState.numbered_of_entered hq)
        (by rw [hdrawn]; rfl)
      have hnot := hnot q x.2 hq
      show x.2.sequence < event.sequence
      omega
    · intro horder' q event' hq
      obtain ⟨x, hx, rfl⟩ := hs.logged q event' hq
      have hlt := (List.pairwise_append.mp horder').2.2 x hx (id, event) (by simp)
      exact not_lt.mpr hlt.le

/-! ### What the readers see -/

theorem sublist_inOrder (horder : s.InOrder) {events : List TaskEvent}
    (h : List.Sublist events (s.log.map view)) : events.Pairwise fun x y => x.sequence < y.sequence := by
  apply List.Pairwise.sublist h
  apply List.pairwise_map.mpr
  exact horder

theorem history_sublist (hs : Kept s) (afterEventId : Option String) :
    ∃ events, s.history afterEventId = .ok events ∧ List.Sublist events (s.log.map view) := by
  obtain ⟨front, xs, hlog, hentries⟩ := hs.suffix
  have hread : eventsOf s.entries = .ok (xs.map view) := by
    rw [hentries, eventsOf_entries]
  have hsub : List.Sublist (xs.map view) (s.log.map view) := by
    rw [hlog, List.map_append]
    exact List.sublist_append_right _ _
  cases afterEventId with
  | none => exact ⟨xs.map view, by simp only [history, hread], hsub⟩
  | some after =>
    refine ⟨(xs.map view).filter fun event => after < event.eventId, ?_, List.filter_sublist.trans hsub⟩
    simp only [history, hread]

/-- **In order**: the entries of the stream, every history and what every subscription has seen. -/
structure Ordered (s : TaskStream) : Prop where
  entries : s.InOrder
  history : ∀ afterEventId, ∃ events, s.history afterEventId = .ok events ∧
    events.Pairwise fun x y => x.sequence < y.sequence
  subscriptions : ∀ r subscription, s.subscriptions r = some subscription →
    subscription.seen.Pairwise fun x y => x.sequence < y.sequence

theorem ordered_iff (hs : Kept s) : s.Ordered ↔ s.InOrder := by
  refine ⟨fun h => h.entries, fun h => ⟨h, fun afterEventId => ?_, fun r subscription hr => ?_⟩⟩
  · obtain ⟨events, hevents, hsub⟩ := history_sublist hs afterEventId
    exact ⟨events, hevents, sublist_inOrder h hsub⟩
  · apply sublist_inOrder h
    apply (hs.seen r subscription hr).trans
    exact List.Sublist.map _ List.filter_sublist

/-- **The order of the events is the order of their numbers exactly in the runs in which no call of
`publish` is overtaken between its two commands.** -/
theorem event_order_iff {s : TaskStream} {run : List StreamAction}
    (hrun : exec (step maxlen) initial run = some s) :
    Meets (step maxlen) NotOvertaken initial run ↔
      ∀ pre m, pre <+: run → exec (step maxlen) initial pre = some m → m.Ordered := by
  apply meets_iff_throughout (I := Kept) (fun _ _ _ hs h => step_kept hs h) _ hrun initial_kept
  · exact (ordered_iff initial_kept).mpr (by simp [InOrder, initial])
  · intro s a s' hs hordered h
    rw [step_inOrder hs hordered.entries h, ordered_iff (step_kept hs h)]

/-! ### Two calls that cross -/

def workerEvent (eventType : TaskEventType) : TaskEvent :=
  ⟨"", "TASK-001", eventType, "worker", "PROCESSING", "2026-09-01T08:00:00+00:00", 0, some [], none⟩

/-- The condition, read off the entries. -/
def LargestNumber (s : TaskStream) : StreamAction → Prop
  | .xadd p _ _ _ =>
    match s.calls p with
    | .drawn event => ∀ x ∈ s.log, x.2.sequence ≤ event.sequence
    | _ => True
  | _ => True

instance (s : TaskStream) (a : StreamAction) : Decidable (s.LargestNumber a) := by
  unfold LargestNumber
  split
  · split <;> infer_instance
  · infer_instance

theorem notOvertaken_of_largestNumber (hs : Kept s) (h : s.LargestNumber a) : s.NotOvertaken a := by
  cases a with
  | xadd p id dropped reply =>
    intro _ event hdrawn q event' hq
    simp only [LargestNumber, hdrawn] at h
    obtain ⟨x, hx, rfl⟩ := hs.logged q event' hq
    exact not_lt.mpr (h x hx)
  | incr p event reply => trivial
  | subscribe r cursor => trivial
  | read r => trivial

/-- Two calls draw their numbers one after the other, and append in that order, or the other way. -/
def twoCalls (first second : ℕ) : List StreamAction :=
  [.incr 0 (workerEvent .routingCompleted) .done, .incr 1 (workerEvent .dispatchCompleted) .done,
    .xadd first (toLex (1, 0)) 0 .done, .xadd second (toLex (2, 0)) 0 .done]

theorem event_order_iff_twoCalls : ∃ s, exec (step 100) initial (twoCalls 0 1) = some s ∧ s.Ordered := by
  have hsome : (exec (step 100) initial (twoCalls 0 1)).isSome = true := by decide +kernel
  obtain ⟨s, hrun⟩ := Option.isSome_iff_exists.mp hsome
  refine ⟨s, hrun, (event_order_iff hrun).mp ?_ _ s (List.prefix_refl _) hrun⟩
  have hmeets : Meets (step 100) LargestNumber initial (twoCalls 0 1) := by decide +kernel
  exact hmeets.mono_of_invariant (fun _ _ _ hs _ h => step_kept hs h)
    (fun _ _ hs h => notOvertaken_of_largestNumber hs h) initial_kept

/-- **The call that drew its number first appends second**: the history has number 2 before number 1. -/
theorem events_out_of_order : ∃ s, exec (step 100) initial (twoCalls 1 0) = some s ∧
    (s.history none).map (List.map TaskEvent.sequence) = .ok [2, 1] := by
  have hmap : (exec (step 100) initial (twoCalls 1 0)).map
      (fun s => (s.history none).map (List.map TaskEvent.sequence)) = some (.ok [2, 1]) := by
    decide +kernel
  exact Option.map_eq_some_iff.mp hmap

end TaskStream

end CountyFlow.Events
