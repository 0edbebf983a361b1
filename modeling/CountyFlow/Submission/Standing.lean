import CountyFlow.Submission.Submit

/-!
# What stands of a submission

The rows of the tasks change, but not what they were begun with, and no row goes.  So what a submission
knows of the tasks at one of its points stays true whatever the others do, and the task it is answered with
is the one that was begun under its key.
-/

namespace CountyFlow.Submission

open CountyFlow.Lib CountyFlow.Runtime CountyFlow.Worker

/-! ### What stays of a task -/

/-- The arguments a task was begun with. -/
def TaskRow.args (row : TaskRow) : BeginArgs :=
  ⟨row.taskId, row.orderId, row.idempotencyKey, row.anomalyId, row.assigneeSubjectId⟩

variable {t : String}

namespace Ledger

variable {l l' : Ledger} {a b : BeginArgs} {row : TaskRow}

def begun (l : Ledger) : List BeginArgs := l.tasks.rows.map TaskRow.args

theorem begun_update (taskId : String) (status : TaskStatus) (startedAt completedAt : Option ℕ) :
    (l.update taskId status startedAt completedAt).begun = l.begun := by
  unfold begun
  show (l.tasks.rows.map _).map _ = _
  rw [List.map_map]
  refine List.map_congr_left fun row _ => ?_
  show (if row.taskId = taskId then _ else row).args = row.args
  split <;> rfl

theorem begun_setStatus {taskId : String} {status : TaskStatus} {started completed : Bool} {now : ℕ}
    (h : l.setStatus taskId status started completed now = some l') : l'.begun = l.begun := by
  obtain ⟨row, -, rfl⟩ := Option.map_eq_some_iff.mp h
  exact begun_update ..

theorem Gains.begun {threadId : String} (h : Gains l l' a threadId) : l'.begun = l.begun ++ [a] := by
  unfold Ledger.begun
  rw [h.tasks, List.map_append]
  rfl

theorem begun_of_mem (h : row ∈ l.tasks.rows) : row.args ∈ l.begun := List.mem_map_of_mem h

theorem begun_of_find (h : l.tasks.find t = some row) : row.args ∈ l.begun ∧ row.taskId = t :=
  ⟨begun_of_mem (Table.find_mem h), Table.find_key h⟩

theorem find_of_begun (h : a ∈ l.begun) : ∃ row, l.tasks.find a.taskId = some row ∧ row.args = a := by
  obtain ⟨row, hrow, rfl⟩ := List.mem_map.mp h
  exact ⟨row, Table.find_of_mem hrow, rfl⟩

theorem byKey_of_begun (h : a ∈ l.begun) : ∃ row, l.byKey a.idempotencyKey = some row ∧ row.args = a := by
  obtain ⟨row, hrow, rfl⟩ := List.mem_map.mp h
  exact ⟨row, byKey_eq_some.mpr ⟨hrow, rfl⟩, rfl⟩

theorem begun_eq_of_id (ha : a ∈ l.begun) (hb : b ∈ l.begun) (h : a.taskId = b.taskId) : a = b := by
  obtain ⟨row, hrow, rfl⟩ := find_of_begun ha
  obtain ⟨row', hrow', rfl⟩ := find_of_begun hb
  rw [h, hrow'] at hrow
  cases hrow
  rfl

theorem begun_eq (ha : a ∈ l.begun) (hb : b ∈ l.begun) (h : a.idempotencyKey = b.idempotencyKey) : a = b := by
  obtain ⟨row, hrow, rfl⟩ := byKey_of_begun ha
  obtain ⟨row', hrow', rfl⟩ := byKey_of_begun hb
  rw [h, hrow'] at hrow
  cases hrow
  rfl

end Ledger

/-! ### What a submission knows -/

namespace BeginState

variable {l l' : Ledger} {a : BeginArgs} {o : BeginOutcome} {st st' : BeginState}

/-- What a call of `begin` has read is still there, and the task it answers with is of its key. -/
def Knows (l : Ledger) : BeginState → Prop
  | .byKey _ _ seen found => seen.begun ⊆ l.begun ∧ ∀ row ∈ found, row.args ∈ l.begun
  | .returned a decision =>
      (∃ b ∈ l.begun, b.taskId = decision.taskId ∧ b.idempotencyKey = a.idempotencyKey) ∧
      (decision.shouldExecute = true → decision.taskId = a.taskId)
  | _ => True

theorem Knows.mono (h : st.Knows l) (hl : l.begun ⊆ l'.begun) : st.Knows l' := by
  cases st with
  | byKey a again seen found => exact ⟨List.Subset.trans h.1 hl, fun row hrow => hl (h.2 row hrow)⟩
  | returned a decision =>
    obtain ⟨⟨b, hb, hid, hkey⟩, hnew⟩ := h
    exact ⟨⟨b, hl hb, hid, hkey⟩, hnew⟩
  | _ => trivial

theorem knows_flush {again : BeginState} {fate : Fate} {free : Bool} (h : again.Knows l) :
    (flush a fate free again).Knows l := by
  unfold flush
  split
  · split
    · exact h
    · trivial
  · trivial
  · trivial

theorem knows_afterQueries {again : Bool} {found byKey : Option TaskRow} (hfound : ∀ row ∈ found,
    row.args ∈ l.begun) (hbyKey : ∀ row ∈ byKey, row.args ∈ l.begun ∧ row.idempotencyKey = a.idempotencyKey) :
    (afterQueries a again found byKey).Knows l := by
  have hexisting : ∀ row, existing a found byKey = .ok (some row) →
      row.args ∈ l.begun ∧ row.idempotencyKey = a.idempotencyKey := by
    intro row h
    unfold existing at h
    split at h
    · cases h
    · rename_i hsame
      split at h
      · cases h
      · cases found with
        | none => exact hbyKey row (Except.ok.inj h)
        | some row' =>
          cases h
          exact ⟨hfound _ rfl, by simpa using hsame⟩
  unfold afterQueries
  split
  · trivial
  · rename_i row h
    obtain ⟨hrow, hkey⟩ := hexisting row h
    refine ⟨⟨row.args, hrow, ?_, hkey⟩, ?_⟩
    · unfold decision
      split <;> rfl
    · unfold decision
      split <;> (intro hexecute; cases hexecute)
  · split
    · trivial
    · split <;> trivial

/-- What `begin` has read stays true of the tables. -/
theorem step_knows (h : st.Knows l) (hstep : step o l st = some (st', l')) : st'.Knows l' := by
  cases st with
  | byTask a again =>
    simp only [step] at hstep
    split at hstep <;> cases hstep
    · trivial
    · exact ⟨List.Subset.refl _, fun row hrow => (Ledger.begun_of_find hrow).1⟩
  | byKey a again seen found =>
    simp only [step] at hstep
    split at hstep <;> cases hstep
    · trivial
    · refine knows_afterQueries h.2 fun row hrow => ?_
      obtain ⟨hmem, hkey⟩ := Ledger.byKey_eq_some.mp hrow
      refine ⟨?_, hkey⟩
      split at hmem
      · exact h.1 (Ledger.begun_of_mem hmem)
      · exact Ledger.begun_of_mem hmem
  | adding a threadId =>
    cases hstep
    exact knows_flush trivial
  | threading a threadId =>
    cases hstep
    exact knows_flush trivial
  | committing a threadId =>
    simp only [step] at hstep
    split at hstep
    · rename_i hcommit
      cases hstep
      refine ⟨⟨a, ?_, rfl, rfl⟩, fun _ => rfl⟩
      rw [(Ledger.commit_gains hcommit).begun]
      exact List.mem_append_right _ (List.mem_singleton_self a)
    all_goals
      cases hstep
      trivial
  | _ => cases hstep

end BeginState

/-- The request may name its assignee. -/
def SubmitRequest.Staffed (q : SubmitRequest) (w : World) : Prop :=
  q.assigneeEmployeeId = none ∨ w.active q.assigneeSubjectId = true

/-- The id is of the task that was begun under the key of the request. -/
def SubmitRequest.Names (q : SubmitRequest) (w : World) (taskId : String) : Prop :=
  q.Staffed w ∧ ∃ a ∈ w.ledger.begun, a.taskId = taskId ∧ a.idempotencyKey = q.idempotencyKey

/-- Nothing is lost: the tasks stay begun, and who is active stays so. -/
structure World.Later (w w' : World) : Prop where
  begun : w.ledger.begun ⊆ w'.ledger.begun
  active : w'.active = w.active

theorem SubmitRequest.Names.mono {q : SubmitRequest} {w w' : World} (h : q.Names w t)
    (hw : w.Later w') : q.Names w' t := by
  obtain ⟨hstaffed, a, ha, hnames⟩ := h
  refine ⟨?_, a, hw.begun ha, hnames⟩
  unfold SubmitRequest.Staffed
  rw [hw.active]
  exact hstaffed

/-- What a step of a call can do to the tasks: it begins one under its request, or none. -/
structure World.Writes (w w' : World) (q : SubmitRequest) : Prop where
  begun : w'.ledger.begun = w.ledger.begun ∨ ∃ t, w'.ledger.begun = w.ledger.begun ++ [q.args t]
  active : w'.active = w.active

theorem World.Writes.later {w w' : World} {q : SubmitRequest} (h : w.Writes w' q) : w.Later w' := by
  refine ⟨?_, h.active⟩
  obtain hsame | ⟨t, hnew⟩ := h.begun
  · exact hsame ▸ List.Subset.refl _
  · exact hnew ▸ List.subset_append_left _ _

namespace SubmitState

variable {q : SubmitRequest} {w w' : World} {o : SubmitOutcome} {st st' : SubmitState}

def Knows (w : World) (q : SubmitRequest) : SubmitState → Prop
  | .idle => False
  | .looking r => r = q ∧ q.Staffed w
  | .beginning r call => r = q ∧ q.Staffed w ∧ (∃ t, call.args = some (q.args t)) ∧ call.Knows w.ledger
  | .publishing r t | .marking r t | .resetting r t | .announcing r t _
      | .answering r t _ => r = q ∧ q.Names w t
  | .republishing r row => r = q ∧ q.Names w row.taskId
  | .raised r .submissionQueue => r = q ∧ ∃ t, q.Names w t
  | .checking r | .raised r _ => r = q
  | .accepted r answer => r = q ∧ q.Names w answer.taskId

theorem Knows.mono (h : st.Knows w q) (hw : w.Later w') : st.Knows w' q := by
  have hstaffed : q.Staffed w → q.Staffed w' := by
    unfold SubmitRequest.Staffed
    rw [hw.active]
    exact id
  cases st with
  | looking r => exact ⟨h.1, hstaffed h.2⟩
  | beginning r call => exact ⟨h.1, hstaffed h.2.1, h.2.2.1, h.2.2.2.mono hw.begun⟩
  | publishing | marking | resetting | announcing | answering | republishing
      | accepted => exact ⟨h.1, h.2.mono hw⟩
  | raised r error =>
    cases error with
    | submissionQueue =>
      obtain ⟨rfl, t, hnames⟩ := h
      exact ⟨rfl, t, hnames.mono hw⟩
    | _ => exact h
  | _ => exact h

theorem knows_afterBegin {call : BeginState} (hstaffed : q.Staffed w) (hargs : call.args = some (q.args t))
    (h : call.Knows w.ledger) : (afterBegin q call).Knows w q := by
  unfold afterBegin
  split
  · rename_i a decision
    cases hargs
    obtain ⟨⟨b, hb, hid, hkey⟩, hnew⟩ := h
    split
    · rename_i hexecute
      exact ⟨rfl, hstaffed, b, hb, hid.trans (hnew hexecute), hkey⟩
    · exact ⟨rfl, hstaffed, b, hb, hid, hkey⟩
  · rfl
  · rfl

/-- A step begins the task of its request at most, and what the call knows stays true. -/
theorem step_knows (h : st.Knows w q) (hstep : st.step o w = some (st', w')) : w.Writes w' q ∧
    st'.Knows w' q := by
  have hsame : ∀ {st₁ : SubmitState}, st₁.Knows w q → w.Writes w q ∧ st₁.Knows w q :=
    fun h₁ => ⟨⟨Or.inl rfl, rfl⟩, h₁⟩
  cases st with
  | idle | accepted | raised => cases hstep
  | checking r =>
    cases h
    simp only [step] at hstep
    split at hstep
    · rename_i hnone
      cases hstep
      exact hsame ⟨rfl, Or.inl hnone⟩
    · split at hstep
      · cases hstep
        exact hsame rfl
      · split at hstep <;> rename_i hactive <;> cases hstep
        · exact hsame ⟨rfl, Or.inr hactive⟩
        · exact hsame rfl
  | looking r =>
    obtain ⟨rfl, hstaffed⟩ := h
    simp only [step] at hstep
    split at hstep <;> cases hstep
    · exact hsame rfl
    · refine hsame ?_
      unfold afterLook
      split
      · rename_i row hrow
        obtain ⟨hmem, hkey⟩ := Ledger.byKey_eq_some.mp hrow
        have hnames : r.Names w row.taskId := ⟨hstaffed, row.args, Ledger.begun_of_mem hmem, rfl, hkey⟩
        split
        · rfl
        · split
          · exact ⟨rfl, hnames⟩
          · exact ⟨rfl, hnames⟩
      · exact ⟨rfl, hstaffed, ⟨_, rfl⟩, trivial⟩
  | beginning r call =>
    obtain ⟨rfl, hstaffed, ⟨t, hargs⟩, hcall⟩ := h
    simp only [step] at hstep
    split at hstep
    · rename_i call' l hbegin
      cases hstep
      obtain ⟨hsameArgs, hmoves⟩ := BeginState.step_moves hbegin
      refine ⟨⟨?_, rfl⟩, rfl, hstaffed, ⟨t, hsameArgs.trans hargs⟩, BeginState.step_knows hcall hbegin⟩
      obtain ⟨rfl, -⟩ | ⟨a, threadId, rfl, -, hcommit⟩ := hmoves
      · exact .inl rfl
      · cases hargs
        exact .inr ⟨t, (Ledger.commit_gains hcommit).begun⟩
    · cases hstep
      exact hsame (knows_afterBegin hstaffed hargs hcall)
  | publishing r t =>
    obtain ⟨rfl, hnames⟩ := h
    simp only [step] at hstep
    split at hstep <;> cases hstep
    · exact ⟨⟨Or.inl rfl, rfl⟩, rfl, hnames⟩
    · exact ⟨⟨Or.inl rfl, rfl⟩, rfl, hnames⟩
    · exact hsame ⟨rfl, hnames⟩
    · exact hsame rfl
  | marking r t =>
    obtain ⟨rfl, hnames⟩ := h
    simp only [step] at hstep
    split at hstep
    · cases hstep
      exact hsame rfl
    · split at hstep
      · cases hstep
        exact hsame rfl
      · rename_i ledger hset
        cases hstep
        have hwrites : w.Writes { w with ledger := ledger } r := ⟨Or.inl (Ledger.begun_setStatus hset), rfl⟩
        exact ⟨hwrites, rfl, t, hnames.mono hwrites.later⟩
  | republishing r row =>
    obtain ⟨rfl, hnames⟩ := h
    simp only [step] at hstep
    split at hstep <;> cases hstep
    · exact ⟨⟨Or.inl rfl, rfl⟩, rfl, hnames⟩
    · exact ⟨⟨Or.inl rfl, rfl⟩, rfl, row.taskId, hnames⟩
    · exact hsame ⟨rfl, row.taskId, hnames⟩
    · exact hsame rfl
  | resetting r t =>
    obtain ⟨rfl, hnames⟩ := h
    simp only [step] at hstep
    split at hstep
    · cases hstep
      exact hsame rfl
    · split at hstep
      · cases hstep
        exact hsame rfl
      · rename_i row _
        cases hstep
        have hwrites : w.Writes { w with ledger := w.ledger.update t .pending row.startedAt none } r :=
          ⟨Or.inl (Ledger.begun_update ..), rfl⟩
        exact ⟨hwrites, rfl, hnames.mono hwrites.later⟩
  | announcing r t duplicate =>
    cases hstep
    exact hsame h
  | answering r t duplicate =>
    obtain ⟨rfl, hstaffed, hnames⟩ := h
    simp only [step] at hstep
    split at hstep
    · cases hstep
      exact hsame rfl
    · split at hstep
      · cases hstep
        exact hsame rfl
      · rename_i row hrow
        cases hstep
        refine hsame ⟨rfl, hstaffed, ?_⟩
        show ∃ a ∈ w.ledger.begun, a.taskId = row.taskId ∧ _
        rw [(Ledger.begun_of_find hrow).2]
        exact hnames

/-! ### A submission of a task that is there -/

/-- The steps left to a call that finds its task, 0 when it is not such a call. -/
def left : SubmitState → ℕ
  | .checking _ => 7
  | .looking _ => 6
  | .republishing _ _ => 5
  | .resetting _ _ => 4
  | .announcing _ _ _ => 3
  | .answering _ _ _ => 2
  | .accepted _ _ => 1
  | _ => 0

/-- **A task of the request is found**: the call goes on to its answer and raises nothing. -/
theorem step_left {a : BeginArgs} (ha : a ∈ w.ledger.begun) (hkey : a.idempotencyKey = q.idempotencyKey)
    (horder : a.orderId = q.orderId) (hassignee : a.assigneeSubjectId = some q.assigneeSubjectId)
    (hstaffed : q.Staffed w) (h : st.Knows w q) (hleft : 0 < st.left) (hfails : o.fails = false)
    (hqueue : o.queue = .appended) :
    (∃ r answer, st = .accepted r answer) ∨
      ∃ st' w', st.step o w = some (st', w') ∧ 0 < st'.left ∧ st'.left < st.left := by
  have hno : ¬ o.fails = true := by rw [hfails]; exact Bool.false_ne_true
  cases st with
  | accepted r answer => exact .inl ⟨r, answer, rfl⟩
  | checking r =>
    cases h
    refine .inr ⟨.looking q, w, ?_, by simp [left], by simp [left]⟩
    simp only [step]
    cases hemployee : q.assigneeEmployeeId with
    | none => rfl
    | some employee =>
      obtain hnone | hactive := hstaffed
      · rw [hemployee] at hnone
        cases hnone
      · rw [hemployee] at *
        simp only [if_neg hno, if_pos hactive]
  | looking r =>
    obtain ⟨rfl, -⟩ := h
    obtain ⟨row, hrow, rfl⟩ := Ledger.byKey_of_begun ha
    have hsame : r.conflicts row = false := by
      refine decide_eq_false ?_
      rintro (h | h)
      · exact h horder
      · exact h hassignee
    rw [hkey] at hrow
    refine .inr ⟨afterLook r o.taskId (some row), w, ?_, ?_⟩
    · simp only [step, if_neg hno, hrow]
    · simp only [afterLook, hsame, Bool.false_eq_true, if_false]
      split <;> simp [left]
  | republishing r row =>
    refine .inr ⟨.resetting r row.taskId, { w with stream := w.stream ++ [r.messageOf row] },
      ?_, by simp [left], by simp [left]⟩
    simp only [step, hqueue]
  | resetting r t =>
    obtain ⟨rfl, -, b, hb, rfl, -⟩ := h
    obtain ⟨row, hrow, -⟩ := Ledger.find_of_begun hb
    refine .inr ⟨.announcing r b.taskId true,
      { w with ledger := w.ledger.update b.taskId .pending row.startedAt none },
      ?_, by simp [left], by simp [left]⟩
    simp only [step, if_neg hno, hrow]
  | announcing r t duplicate => exact .inr ⟨_, _, rfl, by simp [left], by simp [left]⟩
  | answering r t duplicate =>
    obtain ⟨rfl, -, b, hb, rfl, -⟩ := h
    obtain ⟨row, hrow, -⟩ := Ledger.find_of_begun hb
    refine .inr ⟨.accepted r (row.accepted duplicate), w, ?_, by simp [left], by simp [left]⟩
    simp only [step, if_neg hno, hrow]
  | _ => cases hleft

end SubmitState

end CountyFlow.Submission
