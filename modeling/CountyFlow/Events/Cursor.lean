import CountyFlow.Events.Broker
import CountyFlow.Lib.Numerals

/-!
# Replay from a cursor

`history` with `after_event_id`, beside a subscription created with the same `last_event_id`.  Redis
compares ids as pairs of numbers; `history` compares their texts.
-/

namespace CountyFlow.Events

open CountyFlow.Lib
open CountyFlow.Core

/-! ### The order of the texts -/

theorem toList_idText (id : StreamId) :
    (idText id).toList = digitsOf (ofLex id).1 ++ '-' :: digitsOf (ofLex id).2 := by
  simp [idText, digitsOf]

theorem idText_injective : Function.Injective idText := by
  intro a b h
  have hlists := congrArg String.toList h
  rw [toList_idText, toList_idText] at hlists
  obtain ⟨hms, hcounter⟩ := separated_injective hlists
  exact ofLex.injective (Prod.ext hms hcounter)

theorem idText_lt_iff {a b : StreamId} :
    idText a < idText b ↔ digitsOf (ofLex a).1 < digitsOf (ofLex b).1 ∨
      (ofLex a).1 = (ofLex b).1 ∧ digitsOf (ofLex a).2 < digitsOf (ofLex b).2 := by
  rw [String.lt_iff, toList_idText, toList_idText, numeral_lt_iff]

/-- The texts of two ids can be told apart by the numbers that first differ: of one millisecond these are
the counters, else the milliseconds. -/
def ComparableIds (a b : StreamId) : Prop :=
  if (ofLex a).1 = (ofLex b).1 then Comparable (ofLex a).2 (ofLex b).2
  else Comparable (ofLex a).1 (ofLex b).1

instance (a b : StreamId) : Decidable (ComparableIds a b) := by
  unfold ComparableIds
  infer_instance

theorem comparableIds_iff {a b : StreamId} : ComparableIds a b ↔ (idText a < idText b ↔ a < b) := by
  rw [idText_lt_iff, Prod.Lex.lt_iff, ComparableIds]
  by_cases hms : (ofLex a).1 = (ofLex b).1
  · rw [if_pos hms, hms]
    simp only [lt_irrefl, true_and, false_or]
    by_cases hcounter : (ofLex a).2 = (ofLex b).2
    · rw [hcounter]
      simp [Comparable]
    · exact comparable_iff hcounter
  · rw [if_neg hms]
    simp only [hms, false_and, or_false]
    exact comparable_iff hms

/-! ### What is read behind a cursor -/

variable {s : TaskStream} {xs : List (StreamId × TaskEvent)}

namespace TaskStream

/-- The stream holds these events, under ids in the order in which Redis assigns them. -/
structure Holds (s : TaskStream) (xs : List (StreamId × TaskEvent)) : Prop where
  entries : s.entries = xs.map entryOf
  ids : xs.Pairwise fun x y => x.1 < y.1

theorem Kept.holds (hs : Kept s) : ∃ xs, xs <:+ s.log ∧ s.Holds xs := by
  obtain ⟨front, xs, hlog, hentries⟩ := hs.suffix
  refine ⟨xs, ⟨front, hlog.symm⟩, hentries, ?_⟩
  have hids := hs.ids
  rw [hlog] at hids
  exact (List.pairwise_append.mp hids).2.1

def storedAfter (xs : List (StreamId × TaskEvent)) (id : StreamId) : List TaskEvent :=
  (xs.filter fun x => id < x.1).map view

/-- **Replay from a cursor loses and repeats nothing**: the history behind an event is what is stored after
it, and so is what a new subscription reads. -/
structure ReplayExact (s : TaskStream) (xs : List (StreamId × TaskEvent)) (id : StreamId) : Prop where
  history : s.history (some (idText id)) = .ok (storedAfter xs id)
  subscription : ∀ {maxlen r : ℕ} {s' : TaskStream},
    exec (step maxlen) s [.subscribe r id, .read r] = some s' →
    (s'.subscriptions r).map (fun subscription => .ok subscription.seen) = some (s.history (some (idText id)))

theorem history_after (h : s.Holds xs) (id : StreamId) :
    s.history (some (idText id)) = .ok ((xs.filter fun x => idText id < idText x.1).map view) := by
  simp only [history, h.entries, eventsOf_entries, List.filter_map]
  rfl

theorem seen_of_subscribe {s' : TaskStream} (h : s.Holds xs) {maxlen r : ℕ} {id : StreamId}
    (hrun : exec (step maxlen) s [.subscribe r id, .read r] = some s') :
    (s'.subscriptions r).map Subscription.seen = some (storedAfter xs id) := by
  have hfilter : (s.entries.filter fun entry => id < entry.1) =
      (xs.filter fun x => id < x.1).map entryOf := by
    rw [h.entries, List.filter_map]
    rfl
  simp only [exec, step, setSubscription, Function.update_self, Option.bind_some, readAfter] at hrun
  rw [hfilter, eventsOf_entries] at hrun
  cases hrun
  simp [storedAfter]

theorem eventId_mem_iff (keep : StreamId → Prop) [DecidablePred keep] {x : StreamId × TaskEvent}
    (hx : x ∈ xs) :
    idText x.1 ∈ ((xs.filter fun y => keep y.1).map view).map TaskEvent.eventId ↔ keep x.1 := by
  have hview : TaskEvent.eventId ∘ view = idText ∘ Prod.fst := rfl
  rw [List.map_map, hview]
  simp only [List.mem_map, List.mem_filter, decide_eq_true_eq, Function.comp]
  constructor
  · rintro ⟨y, ⟨-, hkeep⟩, heq⟩
    rwa [idText_injective heq] at hkeep
  · intro hkeep
    exact ⟨x, ⟨hx, hkeep⟩, rfl⟩

/-- **The replay is exact exactly when the ids can be compared as texts.** -/
theorem replay_exact_iff {s : TaskStream} {xs : List (StreamId × TaskEvent)} (h : s.Holds xs)
    (id : StreamId) : s.ReplayExact xs id ↔ ∀ x ∈ xs, ComparableIds id x.1 := by
  constructor
  · intro hexact x hx
    have hsame : (xs.filter fun y => idText id < idText y.1).map view = storedAfter xs id :=
      Except.ok.inj ((history_after h id).symm.trans hexact.history)
    have htext : idText x.1 ∈ ((xs.filter fun y => idText id < idText y.1).map view).map
        TaskEvent.eventId ↔ idText id < idText x.1 :=
      eventId_mem_iff (fun y => idText id < idText y) hx
    have hnumber : idText x.1 ∈ (storedAfter xs id).map TaskEvent.eventId ↔ id < x.1 :=
      eventId_mem_iff (fun y => id < y) hx
    rw [comparableIds_iff, ← htext, hsame, hnumber]
  · intro hcomparable
    have hfilter : (xs.filter fun x => idText id < idText x.1) = xs.filter fun x => id < x.1 := by
      apply List.filter_congr
      intro x hx
      exact decide_eq_decide.mpr (comparableIds_iff.mp (hcomparable x hx))
    have hhistory : s.history (some (idText id)) = .ok (storedAfter xs id) := by
      rw [history_after h, hfilter]
      rfl
    refine ⟨hhistory, fun hrun => ?_⟩
    obtain ⟨subscription, hsubscription, hseen⟩ := Option.map_eq_some_iff.mp (seen_of_subscribe h hrun)
    rw [hsubscription, hhistory, ← hseen]
    rfl

/-! ### Events of one millisecond -/

/-- A worker publishes so many events within a millisecond. -/
def burst (n : ℕ) : List StreamAction :=
  (List.range n).flatMap fun i =>
    [.incr i (workerEvent .routingCompleted) .done, .xadd i (toLex (1790000000000, i)) 0 .done]

theorem Holds.storedIds (h : s.Holds xs) (id : StreamId) :
    xs.map Prod.fst = s.entries.map Prod.fst ∧ (storedAfter xs id).map TaskEvent.eventId =
      ((s.entries.filter fun entry => id < entry.1).map fun entry => idText entry.1) := by
  constructor
  · rw [h.entries, List.map_map]
    rfl
  · rw [h.entries, List.filter_map, storedAfter, List.map_map, List.map_map]
    rfl

theorem replay_exact_iff_tenEvents : ∃ s xs, exec (step 100) initial (burst 10) = some s ∧ s.Holds xs ∧
    s.ReplayExact xs (toLex (1790000000000, 7)) := by
  have hsome : (exec (step 100) initial (burst 10)).isSome = true := by decide +kernel
  obtain ⟨s, hrun⟩ := Option.isSome_iff_exists.mp hsome
  obtain ⟨xs, -, hxs⟩ := Kept.holds (exec_preserves (fun _ _ _ => step_kept) hrun initial_kept)
  have hcomparable : (exec (step 100) initial (burst 10)).map (fun s =>
      decide (∀ id ∈ s.entries.map Prod.fst, ComparableIds (toLex (1790000000000, 7)) id)) =
        some true := by
    decide +kernel
  rw [hrun] at hcomparable
  refine ⟨s, xs, hrun, hxs, (replay_exact_iff hxs _).mpr fun x hx => ?_⟩
  refine of_decide_eq_true (Option.some.inj hcomparable) x.1 ?_
  rw [← (hxs.storedIds x.1).1]
  exact List.mem_map_of_mem hx

/-- **Eleven events in one millisecond**: behind event 9 the history has nothing, and event 10 is stored
there. -/
theorem tenth_event_lost : ∃ s xs, exec (step 100) initial (burst 11) = some s ∧ s.Holds xs ∧
    toLex (1790000000000, 9) ∈ xs.map Prod.fst ∧
    s.history (some "1790000000000-9") = .ok [] ∧
    (storedAfter xs (toLex (1790000000000, 9))).map TaskEvent.eventId = ["1790000000000-10"] ∧
    ¬ s.ReplayExact xs (toLex (1790000000000, 9)) := by
  have hsome : (exec (step 100) initial (burst 11)).isSome = true := by decide +kernel
  obtain ⟨s, hrun⟩ := Option.isSome_iff_exists.mp hsome
  obtain ⟨xs, -, hxs⟩ := Kept.holds (exec_preserves (fun _ _ _ => step_kept) hrun initial_kept)
  have hfacts : (exec (step 100) initial (burst 11)).map (fun s =>
      (decide (toLex (1790000000000, 9) ∈ s.entries.map Prod.fst),
        (s.history (some "1790000000000-9")).map (List.map TaskEvent.eventId),
        (s.entries.filter fun entry => toLex (1790000000000, 9) < entry.1).map fun entry =>
          idText entry.1)) = some (true, .ok [], ["1790000000000-10"]) := by
    decide +kernel
  rw [hrun] at hfacts
  obtain ⟨hmem, hfacts⟩ := Prod.mk.inj (Option.some.inj hfacts)
  obtain ⟨hhistory, hafter⟩ := Prod.mk.inj hfacts
  obtain ⟨hids, hstored⟩ := hxs.storedIds (toLex (1790000000000, 9))
  rw [← hids] at hmem
  rw [← hstored] at hafter
  have hnothing : s.history (some "1790000000000-9") = .ok [] := by
    cases h : s.history (some "1790000000000-9") with
    | error e => rw [h] at hhistory; cases hhistory
    | ok events =>
      rw [h] at hhistory
      rw [List.map_eq_nil_iff.mp (Except.ok.inj hhistory)]
  refine ⟨s, xs, hrun, hxs, of_decide_eq_true hmem, hnothing, hafter, fun hexact => ?_⟩
  have hsame : storedAfter xs (toLex (1790000000000, 9)) = [] :=
    Except.ok.inj (hexact.history.symm.trans hnothing)
  rw [hsame] at hafter
  cases hafter

end TaskStream

end CountyFlow.Events
