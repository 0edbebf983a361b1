import CountyFlow.Submission.Submit

/-!
# Accepted and queued

A call that finds the row of its key answers from it.  The row is committed before the message is
appended, and only a `QueueConnectionError` marks it `SUBMISSION_FAILED`: whatever else comes between
the commit and the append leaves a row that later calls answer from, and so does an answer given
before the mark.
-/

namespace CountyFlow.Submission

open CountyFlow.Lib CountyFlow.Runtime CountyFlow.Worker Function

variable {t : String}

namespace SubmitState

/-- The task that the call has created and whose message it is about to append. -/
def creates : SubmitState → Option String
  | .beginning _ (.returned a decision) => if decision.shouldExecute then some a.taskId else none
  | .publishing _ taskId => some taskId
  | _ => none

/-- The task whose message the call is about to append. -/
def appends : SubmitState → Option String
  | .republishing _ row => some row.taskId
  | st => st.creates

/-- The id under which the call is about to create its task. -/
def drawn : SubmitState → Option String
  | .beginning _ (.byTask a _) | .beginning _ (.byKey a _ _ _) | .beginning _ (.adding a _)
  | .beginning _ (.threading a _) | .beginning _ (.committing a _) => some a.taskId
  | _ => none

/-- The task whose message the call has appended. -/
def sent : SubmitState → Option String
  | .resetting _ taskId | .announcing _ taskId _ | .answering _ taskId _ => some taskId
  | _ => none

/-- The task that the call has created and that has neither its message nor its mark yet. -/
def unsettled : SubmitState → Option String
  | .marking _ taskId => some taskId
  | st => st.creates

theorem running_of_creates {st : SubmitState} (h : st.creates = some t) : st.running = true := by
  cases st with
  | beginning r call => rfl
  | publishing r taskId => rfl
  | _ => cases h

theorem appends_of_creates {st : SubmitState} (h : st.creates = some t) : st.appends = some t := by
  cases st with
  | beginning r call => exact h
  | publishing r taskId => exact h
  | _ => cases h

end SubmitState

variable {w : World} {l l' : Ledger} {call : BeginState} {row : TaskRow} {a : SubmitAction}

namespace Submissions

/-- Nobody was told that the task is accepted. -/
def Unanswered (s : Submissions) (t : String) : Prop :=
  ∀ p r answer, s.calls p = .accepted r answer → answer.taskId ≠ t

/-- An id that is drawn is the id of no task, and no other call has drawn it. -/
def Draws (s : Submissions) : SubmitAction → Prop
  | .advance p o => ∀ r, s.calls p = .looking r →
      s.world.ledger.tasks.find o.taskId = none ∧ ∀ q, (s.calls q).drawn ≠ some o.taskId
  | _ => True

/-- What a step may do while a task is without its message. -/
def PromptStep (s : Submissions) (o : SubmitOutcome) : SubmitState → Prop
  | .publishing _ t => s.world.queued t = true ∨
      (o.queue ≠ .broken ∧ (o.queue = .refused → s.Unanswered t))
  | .marking _ t => s.world.queued t = true ∨ o.fails = false
  | .looking r => ∀ row, s.world.ledger.byKey r.idempotencyKey = some row →
      s.world.queued row.taskId = true ∨ ∀ q r', s.calls q ≠ .marking r' row.taskId
  | _ => True

/-- Between the commit of a task and its message or its mark the creator is not interrupted; the
message is refused only while nobody has been answered, and nobody looks the row up before it is
marked. -/
def Prompt (s : Submissions) : SubmitAction → Prop
  | .advance p o => s.PromptStep o (s.calls p)
  | .interrupt p => ∀ t, (s.calls p).unsettled = some t → s.world.queued t = true
  | _ => True

/-- A task has its message, or its creator is about to append it, or nobody has been told of it and it
is marked or about to be. -/
def Accounted (s : Submissions) (row : TaskRow) : Prop :=
  s.world.queued row.taskId = true ∨ (∃ q, (s.calls q).creates = some row.taskId) ∨
    (s.Unanswered row.taskId ∧
      (row.status = .submissionFailed ∨ ∃ q r, s.calls q = .marking r row.taskId))

structure Covered (s : Submissions) : Prop where
  rows : ∀ row ∈ s.world.ledger.tasks.rows, s.Accounted row
  answered : ∀ p r answer, s.calls p = .accepted r answer →
    ∃ row ∈ s.world.ledger.tasks.rows, row.taskId = answer.taskId
  sent : ∀ p t, (s.calls p).sent = some t → s.world.queued t = true
  untaken : ∀ p r call, s.calls p = .beginning r call → call.Untaken s.world.ledger
  drawn : ∀ p q t, (s.calls p).drawn = some t → (s.calls q).drawn = some t → p = q

/-- What a step of call `p` has to keep. -/
structure Turn (s : Submissions) (p : ℕ) (w : World) (st : SubmitState) : Prop where
  queued : ∀ t, s.world.queued t = true → w.queued t = true
  rows : ∀ row' ∈ w.ledger.tasks.rows, st.creates = some row'.taskId ∨
    w.queued row'.taskId = true ∨ ∃ row ∈ s.world.ledger.tasks.rows, row.taskId = row'.taskId ∧
      (row.status = .submissionFailed → row'.status = .submissionFailed)
  kept : ∀ row ∈ s.world.ledger.tasks.rows, ∃ row' ∈ w.ledger.tasks.rows, row'.taskId = row.taskId
  creates : ∀ t, (s.calls p).creates = some t → w.queued t = true ∨ st.creates = some t ∨
    ((∃ r, st = .marking r t) ∧ s.Unanswered t)
  marking : ∀ r t, s.calls p = .marking r t → w.queued t = true ∨
    ∀ row' ∈ w.ledger.tasks.rows, row'.taskId = t → row'.status = .submissionFailed
  answers : ∀ r answer, st = .accepted r answer →
    (∃ row ∈ s.world.ledger.tasks.rows, row.taskId = answer.taskId) ∧
      (w.queued answer.taskId = true ∨
        ((∀ row ∈ s.world.ledger.tasks.rows, row.taskId = answer.taskId →
          row.status ≠ .submissionFailed) ∧ ∀ q r', s.calls q ≠ .marking r' answer.taskId))
  sent : ∀ t, st.sent = some t → w.queued t = true
  untaken : ∀ r call, st = .beginning r call → call.Untaken w.ledger
  others : ∀ q r call, q ≠ p → s.calls q = .beginning r call → call.Untaken s.world.ledger →
    call.Untaken w.ledger
  drawn : ∀ t, st.drawn = some t → (s.calls p).drawn = some t ∨ ∀ q, (s.calls q).drawn ≠ some t

variable {s : Submissions} {st : SubmitState}

variable {p : ℕ}

theorem Turn.accounted (h : s.Turn p w st) (hs : s.Covered) {row' : TaskRow}
    (hrow' : row' ∈ w.ledger.tasks.rows) :
    ({ world := w, calls := update s.calls p st } : Submissions).Accounted row' := by
  have hother : ∀ q, q ≠ p → update s.calls p st q = s.calls q :=
    fun q hq => update_of_ne hq _ _
  have hself : update s.calls p st p = st := update_self _ _ _
  rcases h.rows row' hrow' with hcreates | hqueued | ⟨row, hrow, hid, hstatus⟩
  · refine .inr (Or.inl ⟨p, ?_⟩)
    show (update s.calls p st p).creates = _
    rw [hself]
    exact hcreates
  · exact .inl hqueued
  · by_cases hq' : w.queued row'.taskId = true
    · exact .inl hq'
    rcases hs.rows row hrow with hqueued | ⟨q, hq⟩ | ⟨hquiet, hfailed⟩
    · rw [hid] at hqueued
      exact absurd (h.queued _ hqueued) hq'
    · rw [hid] at hq
      by_cases hqp : q = p
      · subst hqp
        rcases h.creates _ hq with hqueued | hcreates | ⟨⟨r, hmarking⟩, hquiet⟩
        · exact absurd hqueued hq'
        · refine .inr (Or.inl ⟨q, ?_⟩)
          show (update s.calls q st q).creates = _
          rw [hself]
          exact hcreates
        · refine .inr (Or.inr ⟨fun q' r' answer hcall => ?_, Or.inr ⟨q, r, ?_⟩⟩)
          · have hcall' : update s.calls q st q' = .accepted r' answer := hcall
            by_cases hq'q : q' = q
            · rw [hq'q, hself, hmarking] at hcall'
              cases hcall'
            · rw [hother q' hq'q] at hcall'
              exact hquiet q' r' answer hcall'
          · show update s.calls q st q = _
            rw [hself]
            exact hmarking
      · refine .inr (Or.inl ⟨q, ?_⟩)
        show (update s.calls p st q).creates = _
        rw [hother q hqp]
        exact hq
    · rw [hid] at hquiet hfailed
      refine .inr (Or.inr ⟨fun q r answer hcall heq => ?_, ?_⟩)
      · have hcall' : update s.calls p st q = .accepted r answer := hcall
        by_cases hqp : q = p
        · rw [hqp, hself] at hcall'
          obtain ⟨-, hqueued | ⟨hnot, hnone⟩⟩ := h.answers r answer hcall'
          · rw [heq] at hqueued
            exact hq' hqueued
          · rcases hfailed with hfailed | ⟨q', r', hmarking⟩
            · exact hnot row hrow (hid.trans heq.symm) hfailed
            · rw [← heq] at hmarking
              exact hnone q' r' hmarking
        · rw [hother q hqp] at hcall'
          exact hquiet q r answer hcall' heq
      · rcases hfailed with hfailed | ⟨q, r, hmarking⟩
        · exact .inl (hstatus hfailed)
        · by_cases hqp : q = p
          · subst hqp
            rcases h.marking r _ hmarking with hqueued | hall
            · exact absurd hqueued hq'
            · exact .inl (hall row' hrow' rfl)
          · refine .inr ⟨q, r, ?_⟩
            show update s.calls p st q = _
            rw [hother q hqp]
            exact hmarking

theorem Turn.covered (h : s.Turn p w st) (hs : s.Covered) :
    ({ world := w, calls := update s.calls p st } : Submissions).Covered := by
  have hcases : ∀ q, (q = p ∧ update s.calls p st q = st) ∨
      (q ≠ p ∧ update s.calls p st q = s.calls q) := by
    intro q
    by_cases hq : q = p
    · subst hq
      exact .inl ⟨rfl, update_self _ _ _⟩
    · exact .inr ⟨hq, update_of_ne hq _ _⟩
  refine ⟨fun row hrow => h.accounted hs hrow, fun q r answer hcall => ?_, fun q t hcall => ?_,
    fun q r call hcall => ?_, fun q q' t hq hq' => ?_⟩
  · have hcall' : update s.calls p st q = .accepted r answer := hcall
    have hold : ∃ row ∈ s.world.ledger.tasks.rows, row.taskId = answer.taskId := by
      rcases hcases q with ⟨-, heq⟩ | ⟨-, heq⟩
      · rw [heq] at hcall'
        exact (h.answers r answer hcall').1
      · rw [heq] at hcall'
        exact hs.answered q r answer hcall'
    obtain ⟨row, hrow, hid⟩ := hold
    obtain ⟨row', hrow', hid'⟩ := h.kept row hrow
    exact ⟨row', hrow', hid'.trans hid⟩
  · have hcall' : (update s.calls p st q).sent = some t := hcall
    rcases hcases q with ⟨-, heq⟩ | ⟨-, heq⟩
    · rw [heq] at hcall'
      exact h.sent t hcall'
    · rw [heq] at hcall'
      exact h.queued t (hs.sent q t hcall')
  · have hcall' : update s.calls p st q = .beginning r call := hcall
    rcases hcases q with ⟨-, heq⟩ | ⟨hne, heq⟩
    · rw [heq] at hcall'
      exact h.untaken r call hcall'
    · rw [heq] at hcall'
      exact h.others q r call hne hcall' (hs.untaken q r call hcall')
  · have hq₁ : (update s.calls p st q).drawn = some t := hq
    have hq₂ : (update s.calls p st q').drawn = some t := hq'
    rcases hcases q with ⟨hqp, heq⟩ | ⟨hne, heq⟩ <;> rcases hcases q' with ⟨hqp', heq'⟩ | ⟨hne', heq'⟩
    · exact hqp.trans hqp'.symm
    · rw [heq] at hq₁
      rw [heq'] at hq₂
      rcases h.drawn t hq₁ with hbefore | hnone
      · exact absurd (hs.drawn q' p t hq₂ hbefore) hne'
      · exact absurd hq₂ (hnone q')
    · rw [heq] at hq₁
      rw [heq'] at hq₂
      rcases h.drawn t hq₂ with hbefore | hnone
      · exact absurd (hs.drawn q p t hq₁ hbefore) hne
      · exact absurd hq₁ (hnone q)
    · rw [heq] at hq₁
      rw [heq'] at hq₂
      exact hs.drawn q q' t hq₁ hq₂

/-! ### The steps of a call -/

theorem Turn.quiet
    (hcreates : ∀ t, (s.calls p).creates = some t → s.world.queued t = true ∨ st.creates = some t ∨
      ((∃ r, st = .marking r t) ∧ s.Unanswered t))
    (hmarking : ∀ r t, s.calls p = .marking r t → s.world.queued t = true)
    (hanswers : ∀ r answer, st = .accepted r answer →
      (∃ row ∈ s.world.ledger.tasks.rows, row.taskId = answer.taskId) ∧
        (s.world.queued answer.taskId = true ∨
          ((∀ row ∈ s.world.ledger.tasks.rows, row.taskId = answer.taskId →
            row.status ≠ .submissionFailed) ∧ ∀ q r', s.calls q ≠ .marking r' answer.taskId)))
    (hsent : ∀ t, st.sent = some t → s.world.queued t = true)
    (huntaken : ∀ r call, st = .beginning r call → call.Untaken s.world.ledger)
    (hdrawn : ∀ t, st.drawn = some t →
      (s.calls p).drawn = some t ∨ ∀ q, (s.calls q).drawn ≠ some t) : s.Turn p s.world st where
  queued := fun _ h => h
  rows := fun row' hrow' => Or.inr (Or.inr ⟨row', hrow', rfl, id⟩)
  kept := fun row hrow => ⟨row, hrow, rfl⟩
  creates := hcreates
  marking := fun r t h => Or.inl (hmarking r t h)
  answers := hanswers
  sent := hsent
  untaken := huntaken
  others := fun _ _ _ _ _ h => h
  drawn := hdrawn

variable {r : SubmitRequest}

theorem Turn.raised {e : SubmitError} (h : ∀ t, (s.calls p).unsettled = some t → s.world.queued t = true) :
    s.Turn p s.world (.raised r e) := by
  have hcreates : ∀ t, (s.calls p).creates = some t → (s.calls p).unsettled = some t := by
    intro t ht
    unfold SubmitState.unsettled
    split
    · rename_i hst
      rw [hst] at ht
      cases ht
    · exact ht
  refine .quiet (fun t ht => Or.inl (h t (hcreates t ht))) (fun r' t hst => h t ?_)
    (fun r' answer heq => ?_) (fun t ht => ?_) (fun r' call heq => ?_) (fun t ht => ?_)
  · rw [hst]
    rfl
  · cases heq
  · cases ht
  · cases heq
  · cases ht

theorem queued_append (w : World) (m : Message) (t : String) :
    ({ w with stream := w.stream ++ [m] } : World).queued t =
      (w.queued t || decide (m.taskId = t)) := by
  unfold World.queued
  simp [List.any_append]

theorem Turn.append {m : Message} (hcreates : ∀ t, (s.calls p).creates = some t → t = m.taskId)
    (hmarking : ∀ r t, s.calls p ≠ .marking r t) (hanswers : ∀ r answer, st ≠ .accepted r answer)
    (hsent : ∀ t, st.sent = some t → t = m.taskId) (huntaken : ∀ r call, st ≠ .beginning r call) :
    s.Turn p { s.world with stream := s.world.stream ++ [m] } st where
  queued := fun t h => by rw [queued_append, h]; rfl
  rows := fun row' hrow' => Or.inr (Or.inr ⟨row', hrow', rfl, id⟩)
  kept := fun row hrow => ⟨row, hrow, rfl⟩
  creates := fun t ht => Or.inl (by rw [queued_append, hcreates t ht]; simp)
  marking := fun r t h => absurd h (hmarking r t)
  answers := fun r answer h => absurd h (hanswers r answer)
  sent := fun t ht => by rw [queued_append, hsent t ht]; simp
  untaken := fun r call h => absurd h (huntaken r call)
  others := fun _ _ _ _ _ h => h
  drawn := by
    intro t ht
    unfold SubmitState.drawn at ht
    split at ht <;> first | exact absurd rfl (huntaken _ _) | cases ht

theorem untaken_mono (h : call.Untaken l)
    (hnone : ∀ t, (SubmitState.beginning r call).drawn = some t → l.tasks.find t = none →
      l'.tasks.find t = none)
    (hsome : ∀ t row, l.tasks.find t = some row → ∃ row', l'.tasks.find t = some row') : call.Untaken l' := by
  cases call with
  | byTask a again => exact hnone a.taskId rfl h
  | byKey a again seen found => exact ⟨h.1, h.2.1, hnone a.taskId rfl h.2.2⟩
  | adding a threadId => exact hnone a.taskId rfl h
  | threading a threadId => exact hnone a.taskId rfl h
  | committing a threadId => exact hnone a.taskId rfl h
  | returned a d =>
    obtain ⟨hd, row, hrow⟩ := h
    exact ⟨hd, hsome a.taskId row hrow⟩
  | _ => trivial

theorem find_some_of_pairs (h : ∀ pair ∈ l.pairs, pair ∈ l'.pairs)
    (hrow : l.tasks.find t = some row) : ∃ row', l'.tasks.find t = some row' := by
  have hpair : (row.taskId, row.idempotencyKey) ∈ l.pairs := List.mem_map_of_mem (Table.find_mem hrow)
  obtain ⟨row', hrow', heq⟩ := List.mem_map.mp (h _ hpair)
  refine ⟨row', ?_⟩
  have hid : row'.taskId = t := (Prod.mk.inj heq).1.trans (Table.find_key hrow)
  rw [← hid]
  exact Table.find_of_mem hrow'

theorem untaken_update {l : Ledger} {call : BeginState} {r : SubmitRequest} (h : call.Untaken l) (t : String)
    (status : TaskStatus) (started completed : Option ℕ) :
    call.Untaken (l.update t status started completed) := by
  have hpairs := Ledger.update_pairs l t status started completed
  refine untaken_mono (r := r) h (fun t' _ hnone => Ledger.find_none_of_pairs hpairs hnone)
    fun t' row hrow => find_some_of_pairs (fun pair hpair => ?_) hrow
  rw [hpairs]
  exact hpair

theorem turn_begin {call' : BeginState} {o : BeginOutcome} (hs : s.Covered)
    (hst : s.calls p = .beginning r call) (h : call.step o s.world.ledger = some (call', l)) :
    s.Turn p { s.world with ledger := l } (.beginning r call') := by
  have huntaken := hs.untaken p r call hst
  have hnext := BeginState.step_untaken h huntaken
  have hnot : (s.calls p).creates = none := by
    rw [hst]
    cases call with
    | returned a d => cases h
    | _ => rfl
  obtain ⟨hargs, ⟨rfl, hnew⟩ | ⟨a, threadId, rfl, rfl, hcommit⟩⟩ := BeginState.step_moves h
  · refine .quiet (fun t ht => ?_) (fun r' t hmarking => ?_) (fun r' answer heq => ?_) (fun t ht => ?_)
      (fun r' call₁ heq => ?_) fun t ht => Or.inl ?_
    · rw [hnot] at ht
      cases ht
    · rw [hst] at hmarking
      cases hmarking
    · cases heq
    · cases ht
    · cases heq
      exact hnext
    · rw [hst]
      have hid : ∀ call₁ : BeginState, ∀ t, (SubmitState.beginning r call₁).drawn = some t →
          ∃ a, call₁.args = some a ∧ a.taskId = t := by
        intro call₁ t ht
        cases call₁ with
        | byTask a again => exact ⟨a, rfl, Option.some.inj ht⟩
        | byKey a again seen found => exact ⟨a, rfl, Option.some.inj ht⟩
        | adding a threadId => exact ⟨a, rfl, Option.some.inj ht⟩
        | threading a threadId => exact ⟨a, rfl, Option.some.inj ht⟩
        | committing a threadId => exact ⟨a, rfl, Option.some.inj ht⟩
        | _ => cases ht
      obtain ⟨a, ha, rfl⟩ := hid call' t ht
      rw [hargs] at ha
      cases call with
      | byTask a' again => exact congrArg (fun a : BeginArgs => some a.taskId) (Option.some.inj ha)
      | byKey a' again seen found =>
        exact congrArg (fun a : BeginArgs => some a.taskId) (Option.some.inj ha)
      | adding a' threadId => exact congrArg (fun a : BeginArgs => some a.taskId) (Option.some.inj ha)
      | threading a' threadId => exact congrArg (fun a : BeginArgs => some a.taskId) (Option.some.inj ha)
      | committing a' threadId => exact congrArg (fun a : BeginArgs => some a.taskId) (Option.some.inj ha)
      | _ => cases h
  · have hgains := Ledger.commit_gains hcommit
    refine ⟨fun _ hq => hq, fun row' hrow' => ?_, fun row hrow => ?_, fun t ht => ?_, fun r' t hm => ?_,
      fun r' answer heq => ?_, fun t ht => ?_, fun r' call₁ heq => ?_,
      fun q r' call₁ hne hcall hunt => ?_, fun t ht => ?_⟩
    · have hrow₁ : row' ∈ l.tasks.rows := hrow'
      rw [hgains.tasks] at hrow₁
      rcases List.mem_append.mp hrow₁ with hold | hnew
      · exact .inr (Or.inr ⟨row', hold, rfl, id⟩)
      · rw [List.mem_singleton.mp hnew]
        exact .inl rfl
    · refine ⟨row, ?_, rfl⟩
      show row ∈ l.tasks.rows
      rw [hgains.tasks]
      exact List.mem_append_left _ hrow
    · rw [hnot] at ht
      cases ht
    · rw [hst] at hm
      cases hm
    · cases heq
    · cases ht
    · cases heq
      exact hnext
    · refine untaken_mono (r := r') hunt (fun t ht hnone => hgains.find ?_ hnone) fun t row hrow =>
        find_some_of_pairs (fun pair hpair => ?_) hrow
      · rintro rfl
        refine hne (hs.drawn q p a.taskId ?_ ?_)
        · rw [hcall]
          exact ht
        · rw [hst]
          rfl
      · rw [hgains.pairs]
        exact List.mem_append_left _ hpair
    · cases ht

theorem Turn.onward (h : (s.calls p).unsettled = none) (hanswers : ∀ r answer, st ≠ .accepted r answer)
    (hsent : ∀ t, st.sent = some t → s.world.queued t = true)
    (huntaken : ∀ r call, st = .beginning r call → call.Untaken s.world.ledger)
    (hdrawn : ∀ t, st.drawn = some t → ∀ q, (s.calls q).drawn ≠ some t) : s.Turn p s.world st := by
  have hmarking : ∀ r t, s.calls p ≠ .marking r t := by
    intro r t hst
    rw [hst] at h
    cases h
  have hcreates : (s.calls p).creates = none := by
    rw [← h]
    unfold SubmitState.unsettled
    split
    · rename_i r t hst
      exact absurd hst (hmarking r t)
    · rfl
  refine .quiet (fun t ht => ?_) (fun r t hst => absurd hst (hmarking r t))
    (fun r answer heq => absurd heq (hanswers r answer)) hsent huntaken fun t ht => Or.inr (hdrawn t ht)
  rw [hcreates] at ht
  cases ht

theorem Turn.update {s : Submissions} {st : SubmitState} {t : String} {status : TaskStatus}
    (started completed : Option ℕ) (hcreates : (s.calls p).creates = none)
    (hmarking : ∀ r t', s.calls p = .marking r t' → t' = t ∧ status = .submissionFailed)
    (hstatus : s.world.queued t = true ∨ status = .submissionFailed)
    (hanswers : ∀ r answer, st ≠ .accepted r answer) (hsent : ∀ t, st.sent = some t → s.world.queued t = true)
    (huntaken : ∀ r call, st ≠ .beginning r call) :
    s.Turn p { s.world with ledger := s.world.ledger.update t status started completed } st where
  queued := fun _ h => h
  rows := by
    intro row' hrow'
    obtain ⟨old, hold, rfl⟩ := Ledger.mem_update.mp hrow'
    by_cases hid : old.taskId = t
    · rw [if_pos hid]
      rcases hstatus with hqueued | hfailed
      · refine .inr (Or.inl ?_)
        show s.world.queued old.taskId = true
        rw [hid]
        exact hqueued
      · exact .inr (Or.inr ⟨old, hold, rfl, fun _ => hfailed⟩)
    · rw [if_neg hid]
      exact .inr (Or.inr ⟨old, hold, rfl, fun hfailed => hfailed⟩)
  kept := by
    intro row hrow
    refine ⟨_, Ledger.mem_update.mpr ⟨row, hrow, rfl⟩, ?_⟩
    split <;> rfl
  creates := by
    intro t' ht'
    rw [hcreates] at ht'
    cases ht'
  marking := by
    intro r t' hst
    obtain ⟨rfl, hfailed⟩ := hmarking r t' hst
    refine .inr fun row' hrow' hid' => ?_
    obtain ⟨old, hold, rfl⟩ := Ledger.mem_update.mp hrow'
    by_cases hid : old.taskId = t'
    · rw [if_pos hid]
      exact hfailed
    · rw [if_neg hid] at hid'
      exact absurd hid' hid
  answers := fun r answer heq => absurd heq (hanswers r answer)
  sent := hsent
  untaken := fun r call heq => absurd heq (huntaken r call)
  others := fun q r call _ _ h => untaken_update (r := r) h t status started completed
  drawn := by
    intro t' ht'
    unfold SubmitState.drawn at ht'
    split at ht' <;> first | exact absurd rfl (huntaken _ _) | cases ht'

variable {o : SubmitOutcome}

theorem turn_look (hst : s.calls p = .looking r) (hdraws : s.Draws (.advance p o))
    (hprompt : s.Prompt (.advance p o)) :
    s.Turn p s.world
      (SubmitState.afterLook r o.taskId (s.world.ledger.byKey r.idempotencyKey)) := by
  have hnothing : (s.calls p).unsettled = none := by
    rw [hst]
    rfl
  cases hkey : s.world.ledger.byKey r.idempotencyKey with
  | none =>
    obtain ⟨hnone, hdrawn⟩ := hdraws r hst
    refine .onward hnothing (fun r' answer heq => ?_) (fun t ht => ?_) (fun r' call heq => ?_)
      fun t ht => ?_
    · cases heq
    · cases ht
    · cases heq
      exact hnone
    · cases ht
      exact hdrawn
  | some row =>
    have hrow := (Ledger.byKey_eq_some.mp hkey).1
    show s.Turn p s.world (if r.conflicts row then SubmitState.raised r .idempotencyConflict
      else if row.status = .submissionFailed then .republishing r row
      else .accepted r (row.accepted true))
    split
    · refine .raised fun t ht => ?_
      rw [hnothing] at ht
      cases ht
    split
    · refine .onward hnothing (fun r' answer heq => ?_) (fun t ht => ?_) (fun r' call heq => ?_)
        fun t ht => ?_
      · cases heq
      · cases ht
      · cases heq
      · cases ht
    · rename_i hstatus
      refine .quiet (fun t ht => ?_) (fun r' t heq => ?_) (fun r' answer heq => ?_) (fun t ht => ?_)
        (fun r' call heq => ?_) fun t ht => ?_
      · rw [hst] at ht
        cases ht
      · rw [hst] at heq
        cases heq
      · cases heq
        refine ⟨⟨row, hrow, rfl⟩, ?_⟩
        have hprompt' : s.PromptStep o (.looking r) := by
          rw [← hst]
          exact hprompt
        rcases hprompt' row hkey with hqueued | hmarking
        · exact .inl hqueued
        · refine .inr ⟨fun row' hrow' hid => ?_, hmarking⟩
          have hfind := Table.find_of_mem hrow'
          rw [hid] at hfind
          have hsame := (Table.find_of_mem hrow).symm.trans hfind
          rw [← Option.some.inj hsame]
          exact hstatus
      · cases ht
      · cases heq
      · cases ht

theorem turn_publish (hst : s.calls p = .publishing r t) (hprompt : s.Prompt (.advance p o))
    (h : SubmitState.step o s.world (.publishing r t) = some (st, w)) : s.Turn p w st := by
  have hprompt' : s.PromptStep o (.publishing r t) := by
    rw [← hst]
    exact hprompt
  have hmine : ∀ t', (s.calls p).creates = some t' → t' = t := by
    intro t' ht'
    rw [hst] at ht'
    exact (Option.some.inj ht').symm
  have hnot : ∀ r' t', s.calls p ≠ .marking r' t' := by
    intro r' t' heq
    rw [hst] at heq
    cases heq
  have hraise : s.world.queued t = true → ∀ t', (s.calls p).unsettled = some t' →
      s.world.queued t' = true := by
    intro hqueued t' ht'
    rw [hst] at ht'
    rw [← Option.some.inj ht']
    exact hqueued
  simp only [SubmitState.step] at h
  split at h
  · cases h
    refine .append hmine hnot (fun r' answer heq => ?_) (fun t' ht' => ?_) fun r' call heq => ?_
    · cases heq
    · exact (Option.some.inj ht').symm
    · cases heq
  · cases h
    refine .append hmine hnot (fun r' answer heq => ?_) (fun t' ht' => ?_) fun r' call heq => ?_
    · cases heq
    · cases ht'
    · cases heq
  · rename_i hqueue
    cases h
    refine .quiet (fun t' ht' => ?_) (fun r' t' heq => absurd heq (hnot r' t'))
      (fun r' answer heq => ?_) (fun t' ht' => ?_) (fun r' call heq => ?_) fun t' ht' => ?_
    · rw [hmine t' ht']
      rcases hprompt' with hqueued | ⟨-, hquiet⟩
      · exact .inl hqueued
      · exact .inr (Or.inr ⟨⟨r, rfl⟩, hquiet hqueue⟩)
    · cases heq
    · cases ht'
    · cases heq
    · cases ht'
  · rename_i hqueue
    cases h
    rcases hprompt' with hqueued | ⟨hnotBroken, -⟩
    · exact .raised (hraise hqueued)
    · exact absurd hqueue hnotBroken

theorem turn_begun (hs : s.Covered) (hst : s.calls p = .beginning r call) :
    s.Turn p s.world (SubmitState.afterBegin r call) := by
  have huntaken := hs.untaken p r call hst
  have hraised : (s.calls p).unsettled = none → ∀ e, s.Turn p s.world (.raised r e) := by
    intro hnothing e
    refine .raised fun t ht => ?_
    rw [hnothing] at ht
    cases ht
  rw [hst] at hraised
  cases call with
  | returned a d =>
    obtain ⟨rfl, -⟩ := huntaken
    refine .quiet (fun t ht => ?_) (fun r' t heq => ?_) (fun r' answer heq => ?_) (fun t ht => ?_)
      (fun r' call heq => ?_) fun t ht => ?_
    · rw [hst] at ht
      exact .inr (Or.inl ht)
    · rw [hst] at heq
      cases heq
    · cases heq
    · cases ht
    · cases heq
    · cases ht
  | raised a e => exact hraised rfl _
  | _ => exact hraised rfl _

theorem turn_republish (hst : s.calls p = .republishing r row)
    (h : SubmitState.step o s.world (.republishing r row) = some (st, w)) : s.Turn p w st := by
  have hnothing : (s.calls p).unsettled = none := by
    rw [hst]
    rfl
  have hcreates : ∀ t', (s.calls p).creates = some t' → t' = row.taskId := by
    intro t' ht'
    rw [hst] at ht'
    cases ht'
  have hnot : ∀ r' t', s.calls p ≠ .marking r' t' := by
    intro r' t' heq
    rw [hst] at heq
    cases heq
  have hraised : ∀ e, s.Turn p s.world (.raised r e) := by
    refine fun e => .raised fun t ht => ?_
    rw [hnothing] at ht
    cases ht
  simp only [SubmitState.step] at h
  split at h
  · cases h
    refine .append hcreates hnot (fun r' answer heq => ?_) (fun t' ht' => ?_) fun r' call heq => ?_
    · cases heq
    · exact (Option.some.inj ht').symm
    · cases heq
  · cases h
    refine .append hcreates hnot (fun r' answer heq => ?_) (fun t' ht' => ?_) fun r' call heq => ?_
    · cases heq
    · cases ht'
    · cases heq
  · cases h
    exact hraised _
  · cases h
    exact hraised _

theorem turn_reset (hst : s.calls p = .resetting r t) (hs : s.Covered)
    (h : SubmitState.step o s.world (.resetting r t) = some (st, w)) : s.Turn p w st := by
  have hqueued : s.world.queued t = true := by
    refine hs.sent p t ?_
    rw [hst]
    rfl
  have hnothing : (s.calls p).unsettled = none := by
    rw [hst]
    rfl
  have hraised : ∀ e, s.Turn p s.world (.raised r e) := by
    refine fun e => .raised fun t ht => ?_
    rw [hnothing] at ht
    cases ht
  simp only [SubmitState.step] at h
  split at h
  · cases h
    exact hraised _
  · split at h
    · cases h
      exact hraised _
    · cases h
      refine .update _ _ ?_ (fun r' t' heq => ?_) (Or.inl hqueued) (fun r' answer heq => ?_)
        (fun t' ht' => ?_) fun r' call heq => ?_
      · rw [hst]
        rfl
      · rw [hst] at heq
        cases heq
      · cases heq
      · cases ht'
        exact hqueued
      · cases heq

theorem turn_answer {duplicate : Bool} (hst : s.calls p = .answering r t duplicate) (hs : s.Covered)
    (h : SubmitState.step o s.world (.answering r t duplicate) = some (st, w)) : s.Turn p w st := by
  have hqueued : s.world.queued t = true := by
    refine hs.sent p t ?_
    rw [hst]
    rfl
  have hraised : ∀ e, s.Turn p s.world (.raised r e) := by
    refine fun e => .raised fun t ht => ?_
    rw [hst] at ht
    cases ht
  simp only [SubmitState.step] at h
  split at h
  · cases h
    exact hraised _
  · split at h
    · cases h
      exact hraised _
    · rename_i row hfind
      cases h
      refine .quiet (fun t' ht' => ?_) (fun r' t' heq => ?_) (fun r' answer heq => ?_) (fun t' ht' => ?_)
        (fun r' call heq => ?_) fun t' ht' => ?_
      · rw [hst] at ht'
        cases ht'
      · rw [hst] at heq
        cases heq
      · cases heq
        have hid : row.taskId = t := Table.find_key hfind
        refine ⟨⟨row, Table.find_mem hfind, rfl⟩, Or.inl ?_⟩
        show s.world.queued row.taskId = true
        rw [hid]
        exact hqueued
      · cases ht'
      · cases heq
      · cases ht'

theorem turn_mark (hst : s.calls p = .marking r t) (hprompt : s.Prompt (.advance p o))
    (h : SubmitState.step o s.world (.marking r t) = some (st, w)) : s.Turn p w st := by
  have hprompt' : s.PromptStep o (.marking r t) := by
    rw [← hst]
    exact hprompt
  have hmine : ∀ r' t', s.calls p = .marking r' t' → t' = t := by
    intro r' t' heq
    rw [hst] at heq
    cases heq
    rfl
  have hnothing : (s.calls p).creates = none := by
    rw [hst]
    rfl
  have hraise : s.world.queued t = true → ∀ t', (s.calls p).unsettled = some t' →
      s.world.queued t' = true := by
    intro hqueued t' ht'
    rw [hst] at ht'
    rw [← Option.some.inj ht']
    exact hqueued
  simp only [SubmitState.step] at h
  split at h
  · rename_i hfails
    cases h
    rcases hprompt' with hqueued | hok
    · exact .raised (hraise hqueued)
    · rw [hok] at hfails
      cases hfails
  · split at h
    · rename_i hset
      cases h
      -- a row that is not there needs no mark
      refine ⟨fun _ hq => hq, fun row' hrow' => Or.inr (Or.inr ⟨row', hrow', rfl, id⟩),
        fun row hrow => ⟨row, hrow, rfl⟩, fun t' ht' => ?_, fun r' t' heq => Or.inr fun row' hrow' hid => ?_,
        fun r' answer heq => ?_, fun t' ht' => ?_, fun r' call heq => ?_, fun _ _ _ _ _ hunt => hunt,
        fun t' ht' => ?_⟩
      · rw [hnothing] at ht'
        cases ht'
      · have hfind := Table.find_of_mem hrow'
        rw [hid, hmine r' t' heq, Option.map_eq_none_iff.mp hset] at hfind
        cases hfind
      · cases heq
      · cases ht'
      · cases heq
      · cases ht'
    · rename_i l hset
      cases h
      obtain ⟨row, -, rfl⟩ := Option.map_eq_some_iff.mp hset
      refine .update _ _ hnothing (fun r' t' heq => ⟨hmine r' t' heq, rfl⟩) (Or.inr rfl)
        (fun r' answer heq => ?_) (fun t' ht' => ?_) fun r' call heq => ?_
      · cases heq
      · cases ht'
      · cases heq

/-- Every step of a call keeps its turn, one lemma for each point. -/
theorem turn_step (hs : s.Covered) (hdraws : s.Draws (.advance p o)) (hprompt : s.Prompt (.advance p o))
    (h : SubmitState.step o s.world (s.calls p) = some (st, w)) : s.Turn p w st := by
  cases hst : s.calls p with
  | idle =>
    rw [hst] at h
    cases h
  | accepted r answer =>
    rw [hst] at h
    cases h
  | raised r e =>
    rw [hst] at h
    cases h
  | checking r =>
    have hnothing : (s.calls p).unsettled = none := by
      rw [hst]
      rfl
    have hraised : ∀ e, s.Turn p s.world (.raised r e) := by
      refine fun e => .raised fun t ht => ?_
      rw [hnothing] at ht
      cases ht
    have hlooking : s.Turn p s.world (.looking r) := by
      refine .onward hnothing (fun r' answer heq => ?_) (fun t ht => ?_) (fun r' call heq => ?_)
        fun t ht => ?_
      · cases heq
      · cases ht
      · cases heq
      · cases ht
    rw [hst] at h
    simp only [SubmitState.step] at h
    split at h
    · cases h
      exact hlooking
    · split at h
      · cases h
        exact hraised _
      · split at h
        · cases h
          exact hlooking
        · cases h
          exact hraised _
  | looking r =>
    rw [hst] at h
    simp only [SubmitState.step] at h
    split at h
    · cases h
      refine .raised fun t ht => ?_
      rw [hst] at ht
      cases ht
    · cases h
      exact turn_look hst hdraws hprompt
  | beginning r call =>
    rw [hst] at h
    simp only [SubmitState.step] at h
    split at h
    · rename_i call' l hcall
      cases h
      exact turn_begin hs hst hcall
    · rename_i hover
      cases h
      exact turn_begun hs hst
  | publishing r t =>
    rw [hst] at h
    exact turn_publish hst hprompt h
  | marking r t =>
    rw [hst] at h
    exact turn_mark hst hprompt h
  | republishing r row =>
    rw [hst] at h
    exact turn_republish hst h
  | resetting r t =>
    rw [hst] at h
    exact turn_reset hst hs h
  | announcing r t duplicate =>
    rw [hst] at h
    cases h
    refine .onward ?_ (fun r' answer heq => ?_) (fun t' ht' => hs.sent p t' ?_) (fun r' call heq => ?_)
      fun t' ht' => ?_
    · rw [hst]
      rfl
    · cases heq
    · rw [hst]
      exact ht'
    · cases heq
    · cases ht'
  | answering r t duplicate =>
    rw [hst] at h
    exact turn_answer hst hs h

theorem Covered.write (hs : s.Covered)
    (hrows : ∀ row' ∈ l.tasks.rows, s.world.queued row'.taskId = true ∨
      row' ∈ s.world.ledger.tasks.rows) (hpairs : l.pairs = s.world.ledger.pairs) :
    ({ s with world := { s.world with ledger := l } } : Submissions).Covered := by
  refine ⟨fun row' hrow' => ?_, fun p r answer hcall => ?_, hs.sent, fun p r call hcall => ?_, hs.drawn⟩
  · rcases hrows row' hrow' with hqueued | hold
    · exact .inl hqueued
    · exact hs.rows row' hold
  · obtain ⟨row, hrow, hid⟩ := hs.answered p r answer hcall
    have hpair : (row.taskId, row.idempotencyKey) ∈ l.pairs := by
      rw [hpairs]
      exact List.mem_map_of_mem hrow
    obtain ⟨row', hrow', hsame⟩ := List.mem_map.mp hpair
    exact ⟨row', hrow', (Prod.mk.inj hsame).1.trans hid⟩
  · refine untaken_mono (r := r) (hs.untaken p r call hcall)
      (fun t _ hnone => Ledger.find_none_of_pairs hpairs hnone)
      fun t row hrow => find_some_of_pairs (fun pair hpair => ?_) hrow
    rw [hpairs]
    exact hpair

/-- Every row of the ledger stays accounted for. -/
theorem step_covered {s' : Submissions} (hs : s.Covered) (hdraws : s.Draws a) (hprompt : s.Prompt a)
    (h : step s a = some s') : s'.Covered := by
  cases a with
  | submit p r =>
    simp only [step] at h
    split at h
    · rename_i hidle
      cases h
      refine Turn.covered (.onward ?_ (fun r' answer heq => ?_) (fun t ht => ?_)
        (fun r' call heq => ?_) fun t ht => ?_) hs
      · rw [hidle]
        rfl
      · cases heq
      · cases ht
      · cases heq
      · cases ht
    · cases h
  | advance p o =>
    obtain ⟨⟨st, w⟩, hstep, rfl⟩ := Option.map_eq_some_iff.mp h
    exact (turn_step hs hdraws hprompt hstep).covered hs
  | interrupt p =>
    simp only [step] at h
    split at h
    · cases h
      exact Turn.covered (.raised hprompt) hs
    · cases h
  | work t status started completed now =>
    simp only [step] at h
    split at h
    · rename_i hwork
      obtain ⟨l, hset, rfl⟩ := Option.map_eq_some_iff.mp h
      obtain ⟨row, -, rfl⟩ := Option.map_eq_some_iff.mp hset
      refine hs.write (fun row' hrow' => ?_) (Ledger.update_pairs ..)
      obtain ⟨old, hold, rfl⟩ := Ledger.mem_update.mp hrow'
      by_cases hid : old.taskId = t
      · rw [if_pos hid]
        refine .inl ?_
        show s.world.queued old.taskId = true
        rw [hid]
        exact hwork.1
      · rw [if_neg hid]
        exact .inr hold
    · cases h
  | steer row =>
    obtain ⟨l, hsteer, rfl⟩ := Option.map_eq_some_iff.mp h
    have htasks := Ledger.steer_tasks hsteer
    refine hs.write (fun row' hrow' => Or.inr ?_) ?_
    · rw [← htasks]
      exact hrow'
    · unfold Ledger.pairs
      rw [htasks]

/-! ### Whole runs -/

/-- Where runs begin: no call, and every task that is there has its message or its mark. -/
structure Initial (s : Submissions) : Prop where
  idle : ∀ p, s.calls p = .idle
  rows : ∀ row ∈ s.world.ledger.tasks.rows,
    s.world.queued row.taskId = true ∨ row.status = .submissionFailed

theorem Initial.covered (h : s.Initial) : s.Covered := by
  refine ⟨fun row hrow => ?_, fun p r answer hcall => ?_, fun p t hcall => ?_, fun p r call hcall => ?_,
    fun p q t hcall => ?_⟩
  · rcases h.rows row hrow with hqueued | hfailed
    · exact .inl hqueued
    · refine .inr (Or.inr ⟨fun p r answer hcall => ?_, Or.inl hfailed⟩)
      rw [h.idle p] at hcall
      cases hcall
  · rw [h.idle p] at hcall
    cases hcall
  · rw [h.idle p] at hcall
    cases hcall
  · rw [h.idle p] at hcall
    cases hcall
  · rw [h.idle p] at hcall
    cases hcall

/-- **An accepted submission is queued.**  In every run whose creators are not interrupted between the
commit of a task and its message or its mark, and in which nobody is answered from a task whose message
could not be appended: whenever a call has answered, a message of its task has been appended, or a call
that is about to append it is running. -/
theorem accepted_is_queued {s₀ s : Submissions} {run : List SubmitAction} (h₀ : s₀.Initial)
    (hmeets : Meets step (fun s a => s.Draws a ∧ s.Prompt a) s₀ run) (hrun : exec step s₀ run = some s)
    {p : ℕ} {r : SubmitRequest} {answer : Answer} (hanswer : s.calls p = .accepted r answer) :
    s.world.queued answer.taskId = true ∨
      ∃ q, (s.calls q).running = true ∧ (s.calls q).appends = some answer.taskId := by
  have hs : s.Covered := exec_invariant
    (fun (s₁ : Submissions) a s₂ hs hok hstep => step_covered hs hok.1 hok.2 hstep) hmeets hrun h₀.covered
  obtain ⟨row, hrow, hid⟩ := hs.answered p r answer hanswer
  rcases hs.rows row hrow with hqueued | ⟨q, hcreates⟩ | ⟨hquiet, -⟩
  · rw [hid] at hqueued
    exact .inl hqueued
  · rw [hid] at hcreates
    exact .inr ⟨q, SubmitState.running_of_creates hcreates, SubmitState.appends_of_creates hcreates⟩
  · exact absurd hid.symm (hquiet p r answer hanswer)

theorem empty_initial : empty.Initial := ⟨fun _ => rfl, fun _ h => (by cases h)⟩

/-- What is checked of a step of the first two calls. -/
def tidy (s : Submissions) : SubmitAction → Bool
  | .submit p _ => p < 2
  | .advance p o => p < 2 && match s.calls p with
      | .looking _ => (s.world.ledger.tasks.find o.taskId).isNone &&
          (List.range 2).all fun q => (s.calls q).drawn ≠ some o.taskId &&
            match s.calls q with | .marking _ _ => false | _ => true
      | .publishing _ _ => o.queue = .appended
      | .marking _ _ => false
      | _ => true
  | _ => false

theorem draws_prompt_of_tidy (hs : s.Few 2) (h : s.tidy a = true) : s.Draws a ∧ s.Prompt a := by
  cases a with
  | submit p r => exact ⟨trivial, trivial⟩
  | advance p o =>
    have hstate := (Bool.and_eq_true_iff.mp h).2
    cases hst : s.calls p with
    | looking r =>
      rw [hst] at hstate
      obtain ⟨hfree, hall⟩ := Bool.and_eq_true_iff.mp hstate
      have hcalls : ∀ q, (s.calls q).drawn ≠ some o.taskId ∧ ∀ r' t, s.calls q ≠ .marking r' t := by
        intro q
        by_cases hq : q < 2
        · have hcheck := List.all_eq_true.mp hall q (List.mem_range.mpr hq)
          obtain ⟨hdrawn, hmark⟩ := Bool.and_eq_true_iff.mp hcheck
          refine ⟨of_decide_eq_true hdrawn, fun r' t heq => ?_⟩
          rw [heq] at hmark
          cases hmark
        · rw [hs q (by omega)]
          refine ⟨fun hd => ?_, fun r' t heq => ?_⟩
          · cases hd
          · cases heq
      refine ⟨fun r' _ => ⟨Option.isNone_iff_eq_none.mp hfree, fun q => (hcalls q).1⟩, ?_⟩
      show s.PromptStep o (s.calls p)
      rw [hst]
      exact fun row _ => Or.inr fun q r' => (hcalls q).2 r' row.taskId
    | publishing r t =>
      rw [hst] at hstate
      have hqueue : o.queue = .appended := of_decide_eq_true hstate
      refine ⟨fun r' heq => ?_, ?_⟩
      · rw [hst] at heq
        cases heq
      · show s.PromptStep o (s.calls p)
        rw [hst]
        refine .inr ⟨fun hb => ?_, fun hb => ?_⟩
        · rw [hqueue] at hb
          cases hb
        · rw [hqueue] at hb
          cases hb
    | marking r t =>
      rw [hst] at hstate
      cases hstate
    | _ =>
      refine ⟨fun r' heq => ?_, ?_⟩
      · rw [hst] at heq
        cases heq
      · show s.PromptStep o (s.calls p)
        rw [hst]
        trivial
  | interrupt p => cases h
  | work t status started completed now => cases h
  | steer row => cases h

theorem within_of_tidy (h : s.tidy a = true) : within 2 a = true := by
  cases a with
  | submit p r => exact h
  | advance p o => exact (Bool.and_eq_true_iff.mp h).1
  | interrupt p => cases h
  | work t status started completed now => cases h
  | steer row => cases h

/-- The second call is answered while the first is about to append the message. -/
def overtaken : List SubmitAction :=
  [.submit 0 exampleRequest] ++ List.replicate 7 (.advance 0 (fine "TASK-0")) ++
    [.submit 1 exampleRequest] ++ List.replicate 2 (.advance 1 (fine "TASK-1"))

theorem accepted_is_queued_overtaken : ∃ s answer, exec step empty overtaken = some s ∧
    s.calls 1 = .accepted exampleRequest answer ∧ s.world.stream = [] ∧
    (s.world.queued answer.taskId = true ∨
      ∃ q, (s.calls q).running = true ∧ (s.calls q).appends = some answer.taskId) := by
  have hx : (exec step empty overtaken).map (fun s => decide (s.world.stream = []) &&
      match s.calls 1 with | .accepted r _ => decide (r = exampleRequest) | _ => false) =
        some true := by
    decide +kernel
  have hok : Meets step (fun s a => s.tidy a = true) empty overtaken := by
    decide +kernel
  have hmeets : Meets step (fun s a => s.Draws a ∧ s.Prompt a) empty overtaken :=
    hok.mono_of_invariant (I := Few 2) (fun _ _ _ hs ha hstep => step_few hs (within_of_tidy ha) hstep)
      (fun _ _ hs ha => draws_prompt_of_tidy hs ha) fun _ _ => rfl
  obtain ⟨s, hs, hx⟩ := Option.map_eq_some_iff.mp hx
  obtain ⟨hstream, hcall⟩ := Bool.and_eq_true_iff.mp hx
  cases hst : s.calls 1 with
  | accepted r answer =>
    rw [hst] at hcall
    have hr : r = exampleRequest := of_decide_eq_true hcall
    subst hr
    exact ⟨s, answer, hs, hst, of_decide_eq_true hstream,
      accepted_is_queued empty_initial hmeets hs hst⟩
  | _ =>
    rw [hst] at hcall
    cases hcall

/-- The first call is interrupted after its commit, and the second one finds the row. -/
def interrupted : List SubmitAction :=
  [.submit 0 exampleRequest] ++ List.replicate 7 (.advance 0 (fine "TASK-0")) ++
    [.interrupt 0, .submit 1 exampleRequest] ++ List.replicate 2 (.advance 1 (fine "TASK-1"))

/-- **An interruption loses the message of an accepted task.**  The row is committed, nothing marks it,
and the next call with the key answers from it. -/
theorem accepted_without_message :
    ¬ ∀ (run : List SubmitAction) (s : Submissions) (p : ℕ) (r : SubmitRequest) (answer : Answer),
      exec step empty run = some s → s.calls p = .accepted r answer →
      s.world.queued answer.taskId = true ∨
        ∃ q, (s.calls q).running = true ∧ (s.calls q).appends = some answer.taskId := by
  intro hqueues
  have hx : (exec step empty interrupted).map (fun s => decide (s.world.stream = []) &&
      ((List.range 2).all fun q => (s.calls q).running = false) &&
      match s.calls 1 with | .accepted _ _ => true | _ => false) = some true := by
    decide +kernel
  have hok : Meets step (fun _ a => within 2 a = true) empty interrupted := by
    decide +kernel
  obtain ⟨s, hs, hx⟩ := Option.map_eq_some_iff.mp hx
  obtain ⟨hx, hcall⟩ := Bool.and_eq_true_iff.mp hx
  obtain ⟨hstream, hover⟩ := Bool.and_eq_true_iff.mp hx
  have hfew : s.Few 2 := exec_invariant (fun _ _ _ hs ha hstep => step_few hs ha hstep) hok hs
    fun _ _ => rfl
  have hrunning : ∀ q, (s.calls q).running = false := by
    intro q
    by_cases hq : q < 2
    · exact of_decide_eq_true (List.all_eq_true.mp hover q (List.mem_range.mpr hq))
    · rw [hfew q (by omega)]
      rfl
  cases hst : s.calls 1 with
  | accepted r answer =>
    rcases hqueues interrupted s 1 r answer hs hst with hqueued | ⟨q, hrun, -⟩
    · unfold World.queued at hqueued
      rw [of_decide_eq_true hstream] at hqueued
      cases hqueued
    · rw [hrunning q] at hrun
      cases hrun
  | _ =>
    rw [hst] at hcall
    cases hcall

end Submissions

end CountyFlow.Submission
