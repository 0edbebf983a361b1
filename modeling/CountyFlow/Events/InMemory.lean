import Mathlib.Data.List.Range
import CountyFlow.Events.Event
import CountyFlow.Lib.Feed
import CountyFlow.Lib.Runs

/-!
# The events of a task in one process

`InMemoryTaskEventBroker` of `app/events/broker.py`, on one task.  The numbers come from a bounded history,
and each subscription has a bounded queue.  `publish` and `subscribe` do not wait inside, so each is one step.
-/

namespace CountyFlow.Events

open CountyFlow.Core CountyFlow.Lib

/-- `TaskEventSubscription`, with the last event id it was made with and, of the past, how many events had
been published and what the history had held whenever it gave an event up by then. -/
structure TaskEventSubscription where
  lastEventId : Option String
  feed : Feed TaskEvent
  since : ℕ
  evictionsBefore : List (List TaskEvent)

/-- The history and the subscriptions of a task; `published` keeps what was returned by `publish`, and
`evictions` what the history held, the new event included, whenever it gave its oldest one up. -/
structure TaskBroker where
  history : List TaskEvent
  subscriptions : List TaskEventSubscription
  published : List TaskEvent
  evictions : List (List TaskEvent)

inductive TaskBrokerAction where
  | publish (event : TaskEvent)
  | subscribe (lastEventId : Option String)
  | read (subscription : ℕ)

def TaskBrokerAction.isPublish : TaskBrokerAction → Bool
  | .publish _ => true
  | _ => false

/-- `_offer`; a queue without a size has no limit. -/
def offer (queueSize : ℕ) (feed : Feed TaskEvent) (event : TaskEvent) : Feed TaskEvent :=
  if 0 < queueSize ∧ queueSize ≤ feed.queue.length then
    match feed.queue with
    | [] => feed
    | _ :: _ => feed.drop.put event
  else feed.put event

/-- What comes after the first event with an id, if there is one. -/
def afterEvent (eventId : String) : List TaskEvent → Option (List TaskEvent)
  | [] => none
  | event :: rest => if event.eventId = eventId then some rest else afterEvent eventId rest

namespace TaskBroker

variable {historySize queueSize : ℕ}

def initial : TaskBroker := ⟨[], [], [], []⟩

/-- `history`. -/
def historyAfter (s : TaskBroker) : Option String → List TaskEvent
  | none => s.history
  | some afterEventId => (afterEvent afterEventId s.history).getD s.history

/-- The number `publish` gives to the next event. -/
def nextSequence (s : TaskBroker) : ℤ := (s.history.getLast?.map TaskEvent.sequence).getD 0 + 1

/-- `append` of a `deque` with a length: the oldest element makes room. -/
def remember (historySize : ℕ) (s : TaskBroker) (event : TaskEvent) : TaskBroker :=
  if s.history.length < historySize then { s with history := s.history ++ [event] }
  else { s with
    history := (s.history ++ [event]).drop 1
    evictions := s.evictions ++ [s.history ++ [event]] }

/-- `publish`, with the event it returns. -/
def publish (historySize queueSize : ℕ) (s : TaskBroker) (event : TaskEvent) : TaskEvent × TaskBroker :=
  let published := event.withSequence s.nextSequence
  (published, { remember historySize s published with
    published := s.published ++ [published]
    subscriptions := s.subscriptions.map fun subscription =>
      { subscription with feed := offer queueSize subscription.feed published } })

def subscribe (queueSize : ℕ) (s : TaskBroker) (lastEventId : Option String) : TaskBroker :=
  { s with
    subscriptions := s.subscriptions ++
      [⟨lastEventId, (s.historyAfter lastEventId).foldl (offer queueSize) Feed.empty, s.published.length,
        s.evictions⟩] }

/-- The state after an action, `none` for a `read` that waits. -/
def step (historySize queueSize : ℕ) (s : TaskBroker) : TaskBrokerAction → Option TaskBroker
  | .publish event => some (s.publish historySize queueSize event).2
  | .subscribe lastEventId => some (s.subscribe queueSize lastEventId)
  | .read i =>
    match s.subscriptions[i]? with
    | none => none
    | some subscription =>
      match subscription.feed.take with
      | none => none
      | some feed => some { s with subscriptions := s.subscriptions.set i { subscription with feed := feed } }

end TaskBroker

/-! ### Offers -/

theorem offer_eq (queueSize : ℕ) (feed : Feed TaskEvent) (event : TaskEvent) :
    (0 < queueSize → feed.queue.length < queueSize) ∧ offer queueSize feed event = feed.put event ∨
      (0 < queueSize ∧ queueSize ≤ feed.queue.length) ∧ offer queueSize feed event = feed.drop.put event := by
  unfold offer
  split
  · rename_i hfull
    cases hqueue : feed.queue with
    | nil =>
      rw [hqueue] at hfull
      exact absurd hfull.2 (not_le.mpr hfull.1)
    | cons oldest rest => exact .inr ⟨hqueue ▸ hfull, rfl⟩
  · rename_i hroom
    exact .inl ⟨fun hsize => not_le.mp fun hfull => hroom ⟨hsize, hfull⟩, rfl⟩

theorem offer_offered (queueSize : ℕ) (feed : Feed TaskEvent) (event : TaskEvent) :
    (offer queueSize feed event).offered = feed.offered ++ [event] := by
  rcases offer_eq queueSize feed event with ⟨-, h⟩ | ⟨-, h⟩
  · rw [h, Feed.put_offered]
  · rw [h, Feed.put_offered, Feed.drop_offered]

theorem offer_accounted {queueSize : ℕ} {feed : Feed TaskEvent} {gone : List TaskEvent}
    (h : feed.Accounted gone)
    (event : TaskEvent) : ∃ gone', (offer queueSize feed event).Accounted gone' := by
  rcases offer_eq queueSize feed event with ⟨-, heq⟩ | ⟨-, heq⟩
  · rw [heq]
    exact ⟨gone, h.put event⟩
  · rw [heq]
    obtain ⟨gone', h'⟩ := h.drop
    exact ⟨gone', h'.put event⟩

variable {feed : Feed TaskEvent}

/-- An offer keeps the queue to its size, and drops only from a full one. -/
theorem offer_within {queueSize : ℕ} (h : feed.Within queueSize) (event : TaskEvent) :
    (offer queueSize feed event).Within queueSize := by
  rcases offer_eq queueSize feed event with ⟨hroom, heq⟩ | ⟨⟨hsize, hfull⟩, heq⟩
  · rw [heq]
    exact h.put hroom event
  · rw [heq]
    obtain ⟨hdrop, hroom⟩ := h.drop hsize hfull
    exact hdrop.put (fun _ => hroom) event

theorem foldl_offer (queueSize : ℕ) (events : List TaskEvent) {gone : List TaskEvent}
    (h : feed.Accounted gone) : ∃ gone', (events.foldl (offer queueSize) feed).Accounted gone' ∧
      (events.foldl (offer queueSize) feed).offered = feed.offered ++ events := by
  induction events generalizing feed gone with
  | nil => exact ⟨gone, h, (List.append_nil _).symm⟩
  | cons event events ih =>
    obtain ⟨gone₁, h₁⟩ := @offer_accounted queueSize _ _ h event
    obtain ⟨gone₂, h₂, hoffered⟩ := ih h₁
    refine ⟨gone₂, h₂, ?_⟩
    rw [List.foldl_cons, hoffered, offer_offered, List.append_assoc, List.singleton_append]

theorem foldl_offer_within (queueSize : ℕ) (events : List TaskEvent)
    (h : feed.Within queueSize) : (events.foldl (offer queueSize) feed).Within queueSize := by
  induction events generalizing feed with
  | nil => exact h
  | cons event events ih => exact ih (offer_within h event)

variable {events : List TaskEvent}

theorem afterEvent_eq_some {eventId : String} {rest : List TaskEvent}
    (h : afterEvent eventId events = some rest) :
    ∃ before last, events = before ++ last :: rest ∧ last.eventId = eventId := by
  induction events with
  | nil => cases h
  | cons event events ih =>
    rw [afterEvent] at h
    split at h
    · rename_i hid
      cases h
      exact ⟨[], event, rfl, hid⟩
    · obtain ⟨before, last, rfl, hlast⟩ := ih h
      exact ⟨event :: before, last, rfl, hlast⟩

/-! ### Numbers -/

def consecutive (first : ℤ) (n : ℕ) : List ℤ := (List.range n).map fun i : ℕ => first + i

theorem consecutive_add (first : ℤ) (n m : ℕ) :
    consecutive first (n + m) = consecutive first n ++ consecutive (first + n) m := by
  rw [consecutive, List.range_add, List.map_append, List.map_map]
  refine congrArg (consecutive first n ++ ·) (List.map_congr_left fun i _ => ?_)
  show first + ((n + i : ℕ) : ℤ) = first + n + i
  omega

theorem length_consecutive (first : ℤ) (n : ℕ) : (consecutive first n).length = n := by
  rw [consecutive, List.length_map, List.length_range]

theorem consecutive_inOrder (first : ℤ) (n : ℕ) : (consecutive first n).Pairwise (· < ·) := by
  rw [consecutive, List.pairwise_map]
  exact List.pairwise_lt_range.imp fun h => by omega

def Numbered (events : List TaskEvent) : Prop := events.map TaskEvent.sequence = consecutive 1 events.length

theorem consecutive_one (first : ℤ) : consecutive first 1 = [first] := by
  refine congrArg (fun z => [z]) ?_
  show first + ((0 : ℕ) : ℤ) = first
  omega

theorem Numbered.snoc {events : List TaskEvent} {event : TaskEvent} (h : Numbered events)
    (hevent : event.sequence = 1 + events.length) : Numbered (events ++ [event]) := by
  unfold Numbered
  rw [List.map_append, h, List.length_append, consecutive_add, List.length_singleton, consecutive_one,
    List.map_singleton, hevent]

theorem Numbered.inOrder (h : Numbered events) : events.Pairwise fun a b => a.sequence < b.sequence := by
  apply List.pairwise_map.mp
  rw [h]
  exact consecutive_inOrder 1 events.length

theorem Numbered.suffix {before : List TaskEvent} (h : Numbered (before ++ events)) :
    events.map TaskEvent.sequence = consecutive (1 + before.length) events.length := by
  unfold Numbered at h
  rw [List.map_append, List.length_append, consecutive_add] at h
  exact (List.append_inj h (by rw [List.length_map, length_consecutive])).2

variable {event : TaskEvent}

theorem Numbered.last (h : Numbered (events ++ [event])) : event.sequence = 1 + events.length := by
  have hlast := h.suffix
  rw [List.length_singleton, consecutive_one] at hlast
  exact List.singleton_inj.mp hlast

theorem Numbered.le_length (h : Numbered events) (hmem : event ∈ events) :
    event.sequence ≤ events.length := by
  have hseq : event.sequence ∈ events.map TaskEvent.sequence := List.mem_map_of_mem hmem
  rw [h] at hseq
  obtain ⟨i, hi, heq⟩ := List.mem_map.mp hseq
  have hlt := List.mem_range.mp hi
  omega

/-! ### What every state keeps -/

variable {s s' : TaskBroker} {published : List TaskEvent} {subscription : TaskEventSubscription} {i : ℕ}
  {a : TaskBrokerAction}

namespace TaskBroker

variable {historySize queueSize : ℕ}

/-- What the history has given up, from its oldest event on. -/
def evicted (evictions : List (List TaskEvent)) : List TaskEvent := evictions.filterMap List.head?

/-- The event was the oldest one whenever the full history gave one up. -/
def Evicted (historySize : ℕ) (evictions : List (List TaskEvent)) (event : TaskEvent) : Prop :=
  ∃ held ∈ evictions, held.length = historySize + 1 ∧ held.head? = some event

/-- What a subscription has to do with what was published: it was offered the last events, and those before
the history had given up when it was made, or it had them before. -/
structure Follows (historySize queueSize : ℕ) (published : List TaskEvent)
    (subscription : TaskEventSubscription) : Prop where
  accounted : ∃ gone, subscription.feed.Accounted gone
  within : subscription.feed.Within queueSize
  split : ∃ before, published = before ++ subscription.feed.offered ∧
    ∀ event ∈ before, Evicted historySize subscription.evictionsBefore event ∨ ∃ last ∈ published,
      subscription.lastEventId = some last.eventId ∧ last.sequence ≤ subscription.since ∧
        event.sequence ≤ last.sequence

/-- The history is what it has not given up, it was full whenever it gave an event up, and with a size it is
not empty after an event. -/
structure Kept (historySize queueSize : ℕ) (s : TaskBroker) : Prop where
  numbered : Numbered s.published
  history : s.published = evicted s.evictions ++ s.history
  room : s.history.length ≤ historySize
  full : ∀ held ∈ s.evictions, held.length = historySize + 1
  recent : 0 < historySize → s.published ≠ [] → s.history ≠ []
  follows : ∀ subscription ∈ s.subscriptions, Follows historySize queueSize s.published subscription

theorem initial_kept (historySize queueSize : ℕ) : Kept historySize queueSize initial :=
  ⟨rfl, rfl, Nat.zero_le historySize, nofun, fun _ h => absurd rfl h, nofun⟩

theorem remember_history (historySize : ℕ) (s : TaskBroker) (event : TaskEvent) :
    evicted (remember historySize s event).evictions ++ (remember historySize s event).history =
      evicted s.evictions ++ s.history ++ [event] := by
  unfold remember
  split
  · exact (List.append_assoc ..).symm
  · show evicted (s.evictions ++ [s.history ++ [event]]) ++ (s.history ++ [event]).drop 1 = _
    rw [evicted, List.filterMap_append, ← evicted, List.append_assoc, List.append_assoc]
    refine congrArg (evicted s.evictions ++ ·) ?_
    cases s.history <;> rfl

/-- The history keeps to its size, and gives an event up only when it is full. -/
theorem remember_room (hroom : s.history.length ≤ historySize)
    (hfull : ∀ held ∈ s.evictions, held.length = historySize + 1) (event : TaskEvent) :
    (remember historySize s event).history.length ≤ historySize ∧
      ∀ held ∈ (remember historySize s event).evictions, held.length = historySize + 1 := by
  unfold remember
  split
  · refine ⟨?_, hfull⟩
    show (s.history ++ [event]).length ≤ historySize
    rw [List.length_append, List.length_singleton]
    assumption
  · rename_i hnoroom
    have hlength : (s.history ++ [event]).length = historySize + 1 := by
      rw [List.length_append, List.length_singleton]
      omega
    refine ⟨?_, fun held hmem => ?_⟩
    · show ((s.history ++ [event]).drop 1).length ≤ historySize
      rw [List.length_drop, hlength]
      omega
    · rcases List.mem_append.mp hmem with hmem | hmem
      · exact hfull held hmem
      · rw [List.mem_singleton.mp hmem, hlength]

theorem remember_recent (hsize : 0 < historySize) (s : TaskBroker) (event : TaskEvent) :
    (remember historySize s event).history ≠ [] := by
  unfold remember
  split
  · exact List.append_ne_nil_of_right_ne_nil s.history (List.cons_ne_nil event [])
  · rename_i hfull
    show (s.history ++ [event]).drop 1 ≠ []
    rw [Ne, List.drop_eq_nil_iff, List.length_append, List.length_singleton]
    omega

/-- The number is the next one, also without a history for the first event. -/
theorem Kept.nextSequence (h : Kept historySize queueSize s)
    (hsize : 0 < historySize ∨ s.published = []) : s.nextSequence = 1 + s.published.length := by
  unfold TaskBroker.nextSequence
  cases hhistory : s.history.getLast? with
  | none =>
    have hempty : s.published = [] := by
      refine hsize.elim (fun hsize => ?_) id
      by_contra hne
      exact h.recent hsize hne (List.getLast?_eq_none_iff.mp hhistory)
    rw [hempty]
    rfl
  | some event =>
    obtain ⟨front, hfront⟩ := List.getLast?_eq_some_iff.mp hhistory
    have hpublished : s.published = evicted s.evictions ++ front ++ [event] := by
      rw [h.history, hfront, List.append_assoc]
    have hnumbered := h.numbered
    rw [hpublished] at hnumbered
    show event.sequence + 1 = _
    rw [hnumbered.last, hpublished]
    simp only [List.length_append, List.length_singleton]
    omega

theorem Follows.publish (h : Follows historySize queueSize published subscription) (event : TaskEvent) :
    Follows historySize queueSize (published ++ [event])
      { subscription with feed := offer queueSize subscription.feed event } := by
  obtain ⟨gone, hgone⟩ := h.accounted
  obtain ⟨before, hsplit, hbefore⟩ := h.split
  refine ⟨offer_accounted hgone event, offer_within h.within event, before, ?_, fun e he => ?_⟩
  · show published ++ [event] = before ++ (offer queueSize subscription.feed event).offered
    rw [offer_offered, hsplit, List.append_assoc]
  · refine (hbefore e he).imp_right fun hlast => ?_
    obtain ⟨last, hmem, hrest⟩ := hlast
    exact ⟨last, List.mem_append_left [event] hmem, hrest⟩

theorem publish_kept (h : Kept historySize queueSize s) (hsize : 0 < historySize ∨ s.published = [])
    (event : TaskEvent) : Kept historySize queueSize (s.publish historySize queueSize event).2 where
  numbered := h.numbered.snoc (h.nextSequence hsize)
  history := by
    show s.published ++ [event.withSequence s.nextSequence] = _
    rw [h.history]
    exact (remember_history historySize s _).symm
  room := (remember_room h.room h.full _).1
  full := (remember_room h.room h.full _).2
  recent hsize _ := remember_recent hsize s _
  follows subscription' hmem := by
    obtain ⟨subscription, hold, rfl⟩ := List.mem_map.mp hmem
    exact (h.follows subscription hold).publish _

theorem historyAfter_split (s : TaskBroker) (lastEventId : Option String) :
    ∃ before, s.history = before ++ s.historyAfter lastEventId ∧
      (before = [] ∨ ∃ front last, before = front ++ [last] ∧ lastEventId = some last.eventId) := by
  cases lastEventId with
  | none => exact ⟨[], rfl, .inl rfl⟩
  | some eventId =>
    show ∃ before, s.history = before ++ (afterEvent eventId s.history).getD s.history ∧ _
    cases hafter : afterEvent eventId s.history with
    | none => exact ⟨[], rfl, .inl rfl⟩
    | some rest =>
      obtain ⟨front, last, hsplit, hlast⟩ := afterEvent_eq_some hafter
      refine ⟨front ++ [last], ?_, .inr ⟨front, last, rfl, congrArg some hlast.symm⟩⟩
      rw [Option.getD_some, hsplit, List.append_assoc, List.singleton_append]

theorem subscribe_kept (h : Kept historySize queueSize s) (lastEventId : Option String) :
    Kept historySize queueSize (s.subscribe queueSize lastEventId) where
  numbered := h.numbered
  history := h.history
  room := h.room
  full := h.full
  recent := h.recent
  follows subscription hmem := by
    rcases List.mem_append.mp hmem with hmem | hmem
    · exact h.follows subscription hmem
    obtain rfl := List.mem_singleton.mp hmem
    obtain ⟨before, hsplit, hbefore⟩ := s.historyAfter_split lastEventId
    obtain ⟨gone, hgone, hoffered⟩ := foldl_offer queueSize (s.historyAfter lastEventId) Feed.accounted_empty
    refine ⟨⟨gone, hgone⟩, foldl_offer_within queueSize _ (Feed.within_empty queueSize),
      evicted s.evictions ++ before, ?_, fun event hevent => ?_⟩
    · show s.published = evicted s.evictions ++ before ++ _
      rw [hoffered]
      show s.published = evicted s.evictions ++ before ++ s.historyAfter lastEventId
      rw [h.history, hsplit, List.append_assoc]
    rcases List.mem_append.mp hevent with hevent | hevent
    · obtain ⟨held, hheld, hhead⟩ := List.mem_filterMap.mp hevent
      exact .inl ⟨held, hheld, h.full held hheld, hhead⟩
    rcases hbefore with rfl | ⟨front, last, rfl, hlast⟩
    · cases hevent
    have hpublished : s.published = evicted s.evictions ++ front ++ [last] ++ s.historyAfter lastEventId := by
      rw [h.history, hsplit]
      simp only [List.append_assoc]
    have hmem : last ∈ s.published := by
      rw [hpublished]
      exact List.mem_append_left _ (List.mem_append_right _ (List.mem_singleton_self last))
    refine .inr ⟨last, hmem, hlast, h.numbered.le_length hmem, ?_⟩
    rcases List.mem_append.mp hevent with hevent | hevent
    · have horder := h.numbered.inOrder
      rw [hpublished] at horder
      have hfront := (List.pairwise_append.mp (List.pairwise_append.mp horder).1).2.2
      have hless := hfront event (List.mem_append_right _ hevent) last (List.mem_singleton_self last)
      omega
    · cases List.mem_singleton.mp hevent
      exact Int.le_refl _

/-- A read takes the oldest event of one queue. -/
theorem read_cases (hstep : step historySize queueSize s (.read i) = some s') :
    ∃ subscription feed, s.subscriptions[i]? = some subscription ∧ subscription.feed.take = some feed ∧
      s' = { s with subscriptions := s.subscriptions.set i { subscription with feed := feed } } := by
  rw [step] at hstep
  split at hstep
  · cases hstep
  rename_i subscription hi
  split at hstep
  · cases hstep
  rename_i feed hfeed
  cases hstep
  exact ⟨subscription, feed, hi, hfeed, rfl⟩

theorem read_kept (h : Kept historySize queueSize s)
    (hstep : step historySize queueSize s (.read i) = some s') : Kept historySize queueSize s' := by
  obtain ⟨subscription, feed, hi, hfeed, rfl⟩ := read_cases hstep
  refine ⟨h.numbered, h.history, h.room, h.full, h.recent, fun subscription' hmem => ?_⟩
  rcases List.mem_or_eq_of_mem_set hmem with hmem | rfl
  · exact h.follows subscription' hmem
  have hfollows := h.follows subscription (List.mem_of_getElem? hi)
  obtain ⟨gone, hgone⟩ := hfollows.accounted
  obtain ⟨before, hsplit, hbefore⟩ := hfollows.split
  refine ⟨hgone.take hfeed, hfollows.within.take hfeed, before, ?_, hbefore⟩
  show s.published = before ++ feed.offered
  rw [Feed.take_offered hfeed, hsplit]

/-! ### In order -/

/-- What a subscriber gets. -/
structure DeliversInOrder (historySize queueSize : ℕ) (published : List TaskEvent)
    (subscription : TaskEventSubscription) : Prop where
  /-- The queue is a run of consecutive numbers. -/
  run : ∃ first, subscription.feed.queue.map TaskEvent.sequence =
    consecutive first subscription.feed.queue.length
  /-- It ends with the latest event offered. -/
  latest : subscription.feed.queue ≠ [] → subscription.feed.queue.getLast? =
    subscription.feed.offered.getLast?
  /-- Nothing is delivered twice, and what waits comes after what was delivered. -/
  once : (subscription.feed.received ++ subscription.feed.queue).Pairwise fun a b => a.sequence < b.sequence
  /-- Every event is delivered or waits, or it was the oldest of the full queue when that dropped it, or the
  oldest of the full history when that gave it up, or it is not after the event that the subscriber
  named. -/
  lost : ∀ event ∈ published, event ∈ subscription.feed.received ∨ event ∈ subscription.feed.queue ∨
    (∃ held ∈ subscription.feed.drops, held.length = queueSize ∧ held.head? = some event) ∨
      Evicted historySize subscription.evictionsBefore event ∨
        ∃ last ∈ published, subscription.lastEventId = some last.eventId ∧
        last.sequence ≤ subscription.since ∧
          event.sequence ≤ last.sequence

/-- The events are numbered 1, 2, 3, ..., and every subscriber gets the run of events up to the latest one. -/
def InOrder (historySize queueSize : ℕ) (s : TaskBroker) : Prop :=
  s.published.map TaskEvent.sequence = consecutive 1 s.published.length ∧
    ∀ subscription ∈ s.subscriptions, DeliversInOrder historySize queueSize s.published subscription

theorem Follows.deliversInOrder (hnumbered : Numbered published)
    (h : Follows historySize queueSize published subscription) :
    DeliversInOrder historySize queueSize published subscription := by
  obtain ⟨gone, hgone⟩ := h.accounted
  obtain ⟨before, hsplit, hbefore⟩ := h.split
  have hoffered : subscription.feed.offered.Sublist published := by
    rw [hsplit]
    exact List.sublist_append_right _ _
  refine ⟨⟨1 + (before ++ gone).length, ?_⟩, fun hne => ?_, ?_, fun event hevent => ?_⟩
  · apply Numbered.suffix
    rw [List.append_assoc, ← hgone.split, ← hsplit]
    exact hnumbered
  · rw [hgone.split, List.getLast?_append_of_ne_nil _ hne]
  · exact hnumbered.inOrder.sublist (hgone.received_queue_sublist.trans hoffered)
  · rw [hsplit] at hevent
    rcases List.mem_append.mp hevent with hevent | hevent
    · exact .inr (.inr (.inr (hbefore event hevent)))
    refine (hgone.account hevent).imp_right (.imp_right fun hdropped => .inl ?_)
    obtain ⟨held, hheld, hhead⟩ := hdropped
    exact ⟨held, hheld, h.within.full held hheld, hhead⟩

theorem Kept.inOrder (h : Kept historySize queueSize s) : InOrder historySize queueSize s :=
  ⟨h.numbered, fun subscription hmem => (h.follows subscription hmem).deliversInOrder h.numbered⟩

/-! ### Runs -/

/-- A run publishes as many events as it has calls of `publish`. -/
theorem step_published (hstep : step historySize queueSize s a = some s') :
    s'.published.length = s.published.length + [a].countP TaskBrokerAction.isPublish := by
  cases a with
  | publish event =>
    cases hstep
    exact List.length_append
  | subscribe lastEventId =>
    cases hstep
    rfl
  | read i =>
    obtain ⟨subscription, feed, -, -, rfl⟩ := read_cases hstep
    rfl

theorem exec_published {run : List TaskBrokerAction}
    (hrun : exec (step historySize queueSize) s run = some s') :
    s'.published.length = s.published.length + run.countP TaskBrokerAction.isPublish := by
  induction run generalizing s with
  | nil =>
    cases hrun
    rfl
  | cons a run ih =>
    obtain ⟨m, hstep, hrest⟩ := exec_cons_eq_some.mp hrun
    rw [ih hrest, step_published hstep, Nat.add_assoc, ← List.countP_append, List.singleton_append]

/-- A step keeps what holds of history and subscriptions, of a broker without a history for the first
event. -/
theorem step_kept (h : 0 < historySize ∨ s.published.length ≤ 1 → Kept historySize queueSize s)
    (hstep : step historySize queueSize s a = some s') (hsize : 0 < historySize ∨ s'.published.length ≤ 1) :
    Kept historySize queueSize s' := by
  have hlength := step_published hstep
  have hkept : Kept historySize queueSize s := h (hsize.imp_right fun hle => by omega)
  cases a with
  | publish event =>
    have hfirst : 0 < historySize ∨ s.published = [] := by
      refine hsize.imp_right fun hle => List.length_eq_zero_iff.mp ?_
      have hone : [TaskBrokerAction.publish event].countP TaskBrokerAction.isPublish = 1 := rfl
      omega
    cases hstep
    exact publish_kept hkept hfirst event
  | subscribe lastEventId =>
    cases hstep
    exact subscribe_kept hkept lastEventId
  | read i => exact read_kept hkept hstep

/-! ### No history -/

/-- Without a history every event is the first one. -/
structure Forgetful (s : TaskBroker) : Prop where
  history : s.history = []
  sequence : ∀ event ∈ s.published, event.sequence = 1

theorem step_forgetful (h : Forgetful s) (hstep : step 0 queueSize s a = some s') : Forgetful s' := by
  cases a with
  | publish event =>
    cases hstep
    have hnext : s.nextSequence = 1 := by
      rw [nextSequence, h.history]
      rfl
    refine ⟨?_, fun event' hmem => ?_⟩
    · show (s.history ++ [event.withSequence s.nextSequence]).drop 1 = []
      rw [h.history]
      rfl
    · rcases List.mem_append.mp hmem with hmem | hmem
      · exact h.sequence event' hmem
      · rw [List.mem_singleton.mp hmem]
        exact hnext
  | subscribe lastEventId =>
    cases hstep
    exact ⟨h.history, h.sequence⟩
  | read i =>
    obtain ⟨subscription, feed, -, -, rfl⟩ := read_cases hstep
    exact ⟨h.history, h.sequence⟩

theorem Forgetful.length_le_one (h : Forgetful s) (hnumbered : Numbered s.published) :
    s.published.length ≤ 1 := by
  by_contra hlong
  have htwo : (2 : ℤ) ∈ consecutive 1 s.published.length :=
    List.mem_map.mpr ⟨1, List.mem_range.mpr (not_le.mp hlong), rfl⟩
  rw [← hnumbered] at htwo
  obtain ⟨event, hmem, hsequence⟩ := List.mem_map.mp htwo
  have hone := h.sequence event hmem
  omega

/-- **Delivery in order**: a run delivers in order exactly when the history has a size, or the run publishes
no second event. -/
theorem delivery_in_order_iff {run : List TaskBrokerAction} {s : TaskBroker}
    (hrun : exec (step historySize queueSize) initial run = some s) :
    InOrder historySize queueSize s ↔ 0 < historySize ∨ run.countP TaskBrokerAction.isPublish ≤ 1 := by
  have hlength : s.published.length = run.countP TaskBrokerAction.isPublish := by
    rw [exec_published hrun]
    exact Nat.zero_add _
  rw [← hlength]
  constructor
  · intro horder
    rcases Nat.eq_zero_or_pos historySize with rfl | hsize
    · have hforgetful : Forgetful s :=
        exec_preserves (fun _ _ _ h hstep => step_forgetful h hstep) hrun ⟨rfl, nofun⟩
      exact .inr (hforgetful.length_le_one horder.1)
    · exact .inl hsize
  · intro hsize
    have hkept : 0 < historySize ∨ s.published.length ≤ 1 → Kept historySize queueSize s :=
      exec_preserves (I := fun s => 0 < historySize ∨ s.published.length ≤ 1 → Kept historySize queueSize s)
        (fun _ _ _ h hstep => step_kept h hstep) hrun fun _ => initial_kept historySize queueSize
    exact (hkept hsize).inOrder

def startedEvent (eventId : String) : TaskEvent :=
  ⟨eventId, "TASK-001", .workerStarted, "worker", "PROCESSING", "2026-09-01T08:00:00+00:00", 0, some [], none⟩

/-- The history has given up the first event, and the full queue the second and the third. -/
def shortQueue : List TaskBrokerAction :=
  [.publish (startedEvent "a"), .publish (startedEvent "b"), .publish (startedEvent "c"),
    .subscribe (some "a"), .publish (startedEvent "d"), .read 0, .publish (startedEvent "e")]

theorem delivery_in_order_shortQueue : ∃ s, exec (step 2 1) initial shortQueue = some s ∧
    s.subscriptions.map (fun subscription => (subscription.feed.received.map TaskEvent.sequence,
      subscription.feed.queue.map TaskEvent.sequence, subscription.feed.drops.map fun held =>
        held.map TaskEvent.sequence)) = [([4], [5], [[2], [3]])] ∧ InOrder 2 1 s := by
  have hmap : (exec (step 2 1) initial shortQueue).map (fun s => s.subscriptions.map fun subscription =>
      (subscription.feed.received.map TaskEvent.sequence, subscription.feed.queue.map TaskEvent.sequence,
        subscription.feed.drops.map fun held => held.map TaskEvent.sequence)) =
        some [([4], [5], [[2], [3]])] := by
    decide +kernel
  obtain ⟨s, hrun, hs⟩ := Option.map_eq_some_iff.mp hmap
  exact ⟨s, hrun, hs, (delivery_in_order_iff hrun).mpr (.inl (by decide))⟩

/-- Without a history both events are the first. -/
theorem no_history_no_order : ∃ s,
    exec (step 0 1) initial [.publish (startedEvent "a"), .publish (startedEvent "b")] =
    some s ∧ s.published.map TaskEvent.sequence = [1, 1] ∧ ¬ InOrder 0 1 s := by
  have hmap : (exec (step 0 1) initial [.publish (startedEvent "a"), .publish (startedEvent "b")]).map
      (fun s => s.published.map TaskEvent.sequence) = some [1, 1] := by decide +kernel
  obtain ⟨s, hrun, hs⟩ := Option.map_eq_some_iff.mp hmap
  refine ⟨s, hrun, hs, fun horder => ?_⟩
  have hlength : s.published.length = 2 := by
    have hmapped := congrArg List.length hs
    rwa [List.length_map] at hmapped
  have hnumbers := horder.1
  rw [hs, hlength] at hnumbers
  exact absurd hnumbers (by decide)

end TaskBroker

end CountyFlow.Events
