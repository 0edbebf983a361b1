import CountyFlow.Memory.Overwrite

/-!
# What one call of `mutate` leaves

A call that has the lock, alone with the store it finds: `CallState.move` is one of its steps, and an
answer of the outside stands for each.  Up to the decision the call only looks; what it then leaves of its
fact is followed from the decision to the result.
-/

namespace CountyFlow.Memory

open CountyFlow.Lib CallState

def CallState.move (v : MutationService) (x : Store × CallState) (a : Answer) : Option (Store × CallState) :=
  x.2.advance v x.1 a

/-- The foreign key of `memory_evidence`. -/
def Store.Referenced (s : Store) : Prop :=
  ∀ e ∈ s.evidence, ∃ row, s.mutations.find e.mutationId = some row

def Store.linked (s : Store) (factKey : String) : List Evidence :=
  s.evidence.filter fun e => e.factKey = some factKey

/-- The fact and its evidence are as they were. -/
structure Store.Keeps (before s : Store) (factKey : String) : Prop where
  facts : s.facts = before.facts
  linked : s.linked factKey = before.linked factKey

/-- The evidence of a mutation is there and has no fact yet. -/
def Store.Noted (s : Store) (c : MutationCommand) (mutationId : ℕ) : Prop :=
  ∃ e ∈ s.evidence, e.mutationId = mutationId ∧ e.fingerprint = c.evidenceFingerprint ∧ e.factKey = none

def Store.Written (s : Store) (c : MutationCommand) (factKey : String) : Prop :=
  ∃ version mutationId now,
    s.facts.find factKey = some (.ofCommand c factKey version .active mutationId now)

def Store.Supported (s : Store) (c : MutationCommand) (factKey : String) : Prop :=
  ∃ e ∈ s.linked factKey, e.fingerprint = c.evidenceFingerprint

/-- The policy has decided on a new mutation, on the store the call has found. -/
structure Decided (v : MutationService) (before : Store) (c : MutationCommand) (mutationId : ℕ)
    (d : MemoryDecision) (now : ℤ) : Prop where
  evaluated : evaluateMutation (before.loadFact (v.factKey c)) (v.factKey c) c v.policySettings now = .ok d
  fresh : before.mutations.find mutationId = none

/-- **What a call leaves that reports `APPLIED`**: the fact it has found, or the command's. -/
inductive Outcome (before : Store) (c : MutationCommand) (factKey : String) (d : MemoryDecision)
    (s : Store) : Prop
  | kept : d.decision = .noop → before.Keeps s factKey → Outcome before c factKey d s
  | wrote : d.decision.writes = true → s.Written c factKey →
      (before.Referenced → s.Supported c factKey) → Outcome before c factKey d s

/-! ### What the steps do to it -/

section Parts

variable {before s s' : Store} {c : MutationCommand} {factKey : String} {mutationId : ℕ}

theorem Store.Keeps.loadFact (h : before.Keeps s factKey) : s.loadFact factKey = before.loadFact factKey := by
  have hlinked : (s.evidence.filter fun e => e.factKey = some factKey)
      = before.evidence.filter fun e => e.factKey = some factKey := h.linked
  unfold Store.loadFact
  rw [h.facts, hlinked]

theorem Store.Keeps.refl (s : Store) (factKey : String) : s.Keeps s factKey := ⟨rfl, rfl⟩

theorem Store.Keeps.of_same (h : before.Keeps s factKey) (hfacts : s'.facts = s.facts)
    (hevidence : s'.evidence = s.evidence) : before.Keeps s' factKey := by
  refine ⟨hfacts.trans h.facts, ?_⟩
  have hlinked : s'.linked factKey = s.linked factKey := by
    unfold Store.linked
    rw [hevidence]
  exact hlinked.trans h.linked

theorem Store.Noted.of_same (h : s.Noted c mutationId) (hevidence : s'.evidence = s.evidence) :
    s'.Noted c mutationId := by
  unfold Store.Noted
  rw [hevidence]
  exact h

theorem Store.Supported.of_same (h : s.Supported c factKey) (hevidence : s'.evidence = s.evidence) :
    s'.Supported c factKey := by
  unfold Store.Supported Store.linked
  rw [hevidence]
  exact h

theorem Store.Written.of_same (h : s.Written c factKey) (hfacts : s'.facts = s.facts) :
    s'.Written c factKey := by
  unfold Store.Written
  rw [hfacts]
  exact h

theorem Store.Keeps.appendEvidence (h : before.Keeps s factKey) (mutationId : ℕ) (c : MutationCommand) :
    before.Keeps (s.appendEvidence mutationId c) factKey := by
  unfold Store.appendEvidence
  split
  · exact h
  · refine ⟨h.facts, ?_⟩
    rw [← h.linked]
    simp [Store.linked]

theorem Store.noted_appendEvidence (hfresh : ∀ e ∈ s.evidence, e.mutationId ≠ mutationId) :
    (s.appendEvidence mutationId c).Noted c mutationId := by
  unfold Store.appendEvidence
  split
  · rename_i hany
    obtain ⟨e, he, hsame⟩ := List.any_eq_true.mp hany
    exact absurd (of_decide_eq_true hsame).1 (hfresh e he)
  · exact ⟨⟨mutationId, c.evidenceFingerprint, none⟩, by simp, rfl, rfl, rfl⟩

theorem Store.Noted.linkEvidence (h : s.Noted c mutationId)
    (hevidence : s'.evidence = Store.linkEvidence s.evidence mutationId factKey) :
    s'.Supported c factKey := by
  obtain ⟨e, he, hid, hfingerprint, hnone⟩ := h
  refine ⟨{ e with factKey := some factKey }, ?_, hfingerprint⟩
  have hmem : { e with factKey := some factKey } ∈ s'.evidence := by
    rw [hevidence]
    exact List.mem_map.mpr ⟨e, he, if_pos ⟨hid, hnone⟩⟩
  exact List.mem_filter.mpr ⟨hmem, by simp⟩

end Parts

/-! ### Where the call is -/

/-- What has been done in a phase, before and after the fact is written. -/
def Phase.Tracks (before s : Store) (w : Work) : Phase → Prop
  | .applying | .building _ | .probing _ | .staging _ | .settling .. | .finalizing =>
    before.Keeps s w.factKey ∧ (before.Referenced → s.Noted w.command w.mutationId)
  | .checking .. | .activating .. | .retiring .. | .recording .. | .closing =>
    s.Written w.command w.factKey ∧ (before.Referenced → s.Supported w.command w.factKey)
  | .failing _ => True

/-- The mutation has been decided, and only one that changes nothing has been applied. -/
def Store.Answered (s : Store) (mutationId : ℕ) (d : MemoryDecision) : Prop :=
  ∃ row, s.mutations.find mutationId = some row ∧ (row.status = .applied → d.decision = .noop)

structure Deciding (v : MutationService) (c : MutationCommand) (mutationId : ℕ) (d : MemoryDecision)
    (i : ℕ) (c' : MutationCommand) (factKey : String) (d' : MemoryDecision) : Prop where
  mutation : i = mutationId
  command : c' = c
  fact : factKey = v.factKey c
  decision : d' = d

structure Work.For (v : MutationService) (c : MutationCommand) (mutationId : ℕ) (d : MemoryDecision)
    (w : Work) : Prop where
  mutation : w.mutationId = mutationId
  command : w.command = c
  fact : w.factKey = v.factKey c
  before : w.beforeVersion = d.beforeVersion
  after : some w.afterVersion = d.afterVersion
  writes : d.decision.writes = true

/-- **What has been done, by where the call is.** -/
def CallState.Tracks (v : MutationService) (before : Store) (c : MutationCommand) (mutationId : ℕ)
    (d : MemoryDecision) (s : Store) : CallState → Prop
  | .deciding i c' factKey d' _ => Deciding v c mutationId d i c' factKey d' ∧
      before.Keeps s (v.factKey c) ∧ s.evidence = before.evidence
  | .evidencing i c' factKey d' _ => Deciding v c mutationId d i c' factKey d' ∧
      before.Keeps s (v.factKey c) ∧ s.evidence = before.evidence ∧
      (d.decision.writes = false → s.Answered mutationId d)
  | .reviewing i _ factKey => i = mutationId ∧ factKey = v.factKey c ∧ d.decision = .conflictReview ∧
      s.Answered mutationId d
  | .concluding i factKey => i = mutationId ∧ factKey = v.factKey c ∧ s.Answered mutationId d ∧
      (d.decision = .noop → before.Keeps s (v.factKey c))
  | .working w _ _ phase => w.For v c mutationId d ∧ phase.Tracks before s w
  | .reporting _ result | .releasing _ (.ok result) =>
    result.status = .applied → Outcome before c (v.factKey c) d s
  | .releasing _ (.error _) | .done _ => True
  | _ => False

variable {i : ℕ}

section Steps

variable {v : MutationService} {before s s' : Store} {c : MutationCommand} {mutationId : ℕ}
  {d : MemoryDecision} {w : Work} {specs : List Projection} {error : Option String}

theorem Phase.Tracks.of_same (phase : Phase) (h : phase.Tracks before s w) (hfacts : s'.facts = s.facts)
    (hevidence : s'.evidence = s.evidence) : phase.Tracks before s' w := by
  cases phase with
  | applying | building | probing | staging | settling | finalizing =>
    exact ⟨h.1.of_same hfacts hevidence, fun href => (h.2 href).of_same hevidence⟩
  | checking | activating | retiring | recording | closing =>
    exact ⟨h.1.of_same hfacts, fun href => (h.2 href).of_same hevidence⟩
  | failing => trivial

theorem tracks_staged (hw : w.For v c mutationId d) (h : Phase.finalizing.Tracks before s w) :
    (staged w specs error).Tracks v before c mutationId d s := by
  cases error with
  | none => exact ⟨hw, h⟩
  | some code => exact ⟨hw, trivial⟩

theorem tracks_nextTarget (target : MemoryTarget) (hw : w.For v c mutationId d)
    (h : Phase.finalizing.Tracks before s w) :
    (nextTarget w specs error target).Tracks v before c mutationId d s := by
  cases target with
  | graph => exact tracks_staged hw h
  | vector =>
    simp only [nextTarget]
    split
    · exact ⟨hw, h⟩
    · exact tracks_staged hw h

theorem tracks_firstTarget (hw : w.For v c mutationId d) (h : Phase.finalizing.Tracks before s w) :
    (firstTarget w).Tracks v before c mutationId d s := by
  unfold firstTarget
  split
  · exact ⟨hw, h⟩
  · exact tracks_nextTarget _ hw h

theorem tracks_nextActivation (rest : List Projection) (hw : w.For v c mutationId d)
    (h : Phase.closing.Tracks before s w) :
    (nextActivation w specs error rest).Tracks v before c mutationId d s := by
  cases rest with
  | cons p rest =>
    refine ⟨hw, ?_⟩
    show Phase.Tracks before s w (if w.resumed then _ else _)
    split <;> exact h
  | nil =>
    cases error with
    | none => exact ⟨hw, h⟩
    | some code => exact ⟨hw, trivial⟩

theorem tracks_committed {next : Mutation → CallState} {st' : CallState} {factKey : String}
    {f : Mutation → Mutation}
    (hnext : ∀ row s', s'.facts = s.facts → s'.evidence = s.evidence →
      (next (f row)).Tracks v before c mutationId d s')
    (h : committed factKey next s (s.setMutation i f) = (s', st')) :
    st'.Tracks v before c mutationId d s' := by
  obtain ⟨row, -, rfl, rfl⟩ | ⟨rfl, rfl, -⟩ := committed_setMutation h
  · exact hnext row _ rfl rfl
  · trivial

theorem tracks_finish {factKey : String} {row : Mutation}
    (h : row.status = .applied → Outcome before c (v.factKey c) d s) :
    (finish factKey row.result).Tracks v before c mutationId d s := by
  unfold Mutation.result
  split
  · trivial
  · exact h

end Steps

variable {now : ℤ}

theorem Decided.not_finalized {v : MutationService} {before s : Store} {c : MutationCommand} {mutationId : ℕ}
    {d : MemoryDecision} {w : Work} (hd : Decided v before c mutationId d now) (hw : w.For v c mutationId d)
    (hfacts : s.facts = before.facts) {fact : Fact}
    (hfact : s.facts.find w.factKey = some fact) : ¬ w.Finalized fact := by
  rintro ⟨-, hversion⟩
  rcases evaluateMutation_cases hd.evaluated with ⟨-, hwrites⟩ | ⟨hno, -⟩
  · have hloaded : (before.loadFact (v.factKey c)).map FactSnapshot.version = some fact.version := by
      rw [hfacts, hw.fact] at hfact
      simp [Store.loadFact, hfact]
    have hafter : some w.afterVersion = some (fact.version + 1) := by
      rw [hw.after, hwrites.after, hwrites.before, hloaded]
      rfl
    have := Option.some.inj hafter
    omega
  · rw [hw.writes] at hno
    cases hno

theorem tracks_finalizing {v : MutationService} {before s s' : Store} {c : MutationCommand} {mutationId : ℕ}
    {d : MemoryDecision} {decidedAt : ℤ} {w : Work} {specs : List Projection} {error : Option String}
    {st' : CallState} (hd : Decided v before c mutationId d decidedAt) (hw : w.For v c mutationId d)
    (h : Phase.finalizing.Tracks before s w) (hstep : Phase.finalizing.step s w specs error now = (s', st')) :
    st'.Tracks v before c mutationId d s' := by
  simp only [Phase.step] at hstep
  obtain ⟨row, fact, -, hfact, hfin, -⟩ | ⟨row, hrow, -, -, heq⟩ | ⟨-, e, heq⟩ :=
    finalizeCanonical_cases s w now
  · exact absurd hfin (hd.not_finalized hw h.1.facts hfact)
  · rw [heq] at hstep
    cases hstep
    have hid : row.mutationId = w.mutationId := Table.find_key hrow
    refine tracks_nextActivation specs hw ⟨⟨w.version (s.facts.find w.factKey), w.mutationId, now, ?_⟩,
      fun href => (h.2 href).linkEvidence ?_⟩
    · show (s.facts.upsert _).find w.factKey = _
      rw [Table.find_upsert]
      exact if_pos rfl
    · show Store.linkEvidence s.evidence row.mutationId w.factKey = _
      rw [hid]
  · rw [heq] at hstep
    cases hstep
    trivial

theorem tracks_phase {v : MutationService} {before s s' : Store} {c : MutationCommand} {mutationId : ℕ}
    {d : MemoryDecision} {decidedAt : ℤ} {w : Work} {specs : List Projection} {error : Option String}
    {phase : Phase} {st' : CallState} (hd : Decided v before c mutationId d decidedAt)
    (hw : w.For v c mutationId d) (h : phase.Tracks before s w)
    (hstep : phase.step s w specs error now = (s', st')) : st'.Tracks v before c mutationId d s' := by
  cases phase with
  | applying =>
    exact tracks_committed (fun row s'' hfacts hevidence =>
      tracks_firstTarget hw (Phase.Tracks.of_same .finalizing h hfacts hevidence)) hstep
  | building target =>
    simp only [Phase.step] at hstep
    split at hstep <;> cases hstep
    · trivial
    · refine ⟨hw, ?_⟩
      show Phase.Tracks before _ w (if w.resumed then _ else _)
      split <;> exact h
  | probing p =>
    simp only [Phase.step] at hstep
    split at hstep <;> (cases hstep; exact ⟨hw, h⟩)
  | staging p =>
    cases hstep
    exact ⟨hw, Phase.Tracks.of_same .finalizing h rfl rfl⟩
  | settling p status =>
    exact tracks_committed (fun row s'' hfacts hevidence =>
      tracks_nextTarget _ hw (Phase.Tracks.of_same .finalizing h hfacts hevidence)) hstep
  | finalizing => exact tracks_finalizing hd hw h hstep
  | checking p rest =>
    simp only [Phase.step] at hstep
    split at hstep <;> cases hstep
    · exact tracks_nextActivation rest hw h
    · exact ⟨hw, h⟩
  | activating p rest | retiring p rest =>
    cases hstep
    exact ⟨hw, Phase.Tracks.of_same .closing h rfl rfl⟩
  | recording p rest =>
    exact tracks_committed (fun row s'' hfacts hevidence =>
      tracks_nextActivation rest hw (Phase.Tracks.of_same .closing h hfacts hevidence)) hstep
  | failing errorCode =>
    exact tracks_committed (fun row s'' _ _ => tracks_finish fun happlied => by cases happlied) hstep
  | closing =>
    have hkept : ∀ s'' : Store, s''.facts = s.facts → s''.evidence = s.evidence →
        Outcome before c (v.factKey c) d s'' := by
      intro s'' hfacts hevidence
      have h' := Phase.Tracks.of_same .closing h hfacts hevidence
      obtain ⟨hwritten, hsupported⟩ := h'
      rw [hw.command, hw.fact] at hwritten hsupported
      exact .wrote hw.writes hwritten hsupported
    simp only [Phase.step] at hstep
    obtain ⟨row, fact, -, -, -, -, heq⟩ | ⟨e, heq⟩ := markApplied_cases s w.mutationId
    · rw [heq] at hstep
      cases hstep
      exact tracks_finish fun _ => hkept _ rfl rfl
    · rw [heq] at hstep
      cases hstep
      trivial

variable {c' : MutationCommand} {d' : MemoryDecision} {current : Option FactSnapshot}
  {x x' : Store × CallState} {st : CallState} {a : Answer}

section Moves

variable {v : MutationService} {before s s' : Store} {c : MutationCommand} {mutationId : ℕ}
  {d : MemoryDecision} {decidedAt : ℤ} {st' : CallState}

theorem tracks_deciding {factKey : String}
    (h : (deciding i c' factKey d' current).Tracks v before c mutationId d s)
    (hnot : d.decision.writes = false → d.decision = .noop ∨ d.decision = .reject ∨
      d.decision = .conflictReview)
    (hstep : (deciding i c' factKey d' current).step v s now = some (s', st')) :
    st'.Tracks v before c mutationId d s' := by
  obtain ⟨⟨rfl, rfl, rfl, rfl⟩, hkeeps, hevidence⟩ := h
  simp only [step, Option.some.injEq, Store.recordDecision] at hstep
  obtain ⟨row, hrow, rfl, rfl⟩ | ⟨rfl, rfl, -⟩ := committed_setMutation hstep
  · refine ⟨⟨rfl, rfl, rfl, rfl⟩, hkeeps.of_same rfl rfl, hevidence, fun hno => ?_⟩
    obtain rfl : row.mutationId = i := Table.find_key hrow
    have hself : (s.mutations.replace (row.decided d')).find row.mutationId = some (row.decided d') :=
      Table.find_replace_self hrow
    refine ⟨row.decided d', hself, fun happlied => ?_⟩
    rcases hnot hno with hnoop | hreject | hreview
    · exact hnoop
    · simp [Mutation.decided, hreject] at happlied
    · simp [Mutation.decided, hreview] at happlied
  · trivial

theorem tracks_evidencing {factKey : String} (hd : Decided v before c mutationId d decidedAt)
    (h : (evidencing i c' factKey d' current).Tracks v before c mutationId d s)
    (hstep : (evidencing i c' factKey d' current).step v s now = some (s', st')) :
    st'.Tracks v before c mutationId d s' := by
  obtain ⟨⟨rfl, rfl, rfl, rfl⟩, hkeeps, hevidence, hanswered⟩ := h
  have hkeeps' := hkeeps.appendEvidence i c'
  cases hstep
  rcases evaluateMutation_cases hd.evaluated with ⟨hyes, hwrites⟩ | ⟨hno, hprojects⟩
  · have hnoted : before.Referenced → (s.appendEvidence i c').Noted c' i := by
      intro href
      apply Store.noted_appendEvidence
      intro e he hid
      rw [hevidence] at he
      obtain ⟨row, hrow⟩ := href e he
      rw [hid, hd.fresh] at hrow
      cases hrow
    rw [hwrites.projects, hwrites.after]
    exact ⟨⟨rfl, rfl, rfl, rfl, hwrites.after.symm, hyes⟩, hkeeps', hnoted⟩
  · obtain ⟨row, hrow, happlied⟩ := hanswered hno
    have hanswered' : (s.appendEvidence i c').Answered i d' := by
      refine ⟨row, ?_, happlied⟩
      unfold Store.appendEvidence
      split <;> exact hrow
    rw [hprojects]
    show CallState.Tracks v before c' i d' _ (if _ then _ else _)
    split
    · rename_i hreview
      exact ⟨rfl, rfl, hreview.1, hanswered'⟩
    · exact ⟨rfl, rfl, hanswered', fun _ => hkeeps'⟩

theorem decision_of_not_writes {x : MutationDecision} (h : x.writes = false) :
    x = .noop ∨ x = .reject ∨ x = .conflictReview := by
  cases x with
  | create | merge | replace => cases h
  | noop => exact .inl rfl
  | reject => exact .inr (.inl rfl)
  | conflictReview => exact .inr (.inr rfl)

/-- A call that has decided keeps to its decision. -/
theorem tracks_step (hd : Decided v before c mutationId d decidedAt) (h : st.Tracks v before c mutationId d s)
    (hstep : st.step v s now = some (s', st')) : st'.Tracks v before c mutationId d s' := by
  cases st with
  | deciding i c' factKey d' current => exact tracks_deciding h decision_of_not_writes hstep
  | evidencing i c' factKey d' current => exact tracks_evidencing hd h hstep
  | reviewing i c' factKey =>
    obtain ⟨rfl, rfl, hreview, hanswered⟩ := h
    cases hstep
    refine ⟨rfl, rfl, ?_, fun hnoop => ?_⟩
    · obtain ⟨row, hrow, happlied⟩ := hanswered
      refine ⟨row, ?_, happlied⟩
      unfold Store.createPendingReview
      split <;> exact hrow
    · rw [hreview] at hnoop
      cases hnoop
  | concluding i factKey =>
    obtain ⟨rfl, rfl, ⟨row, hrow, happlied⟩, hkeeps⟩ := h
    simp only [step, Store.getMutation, hrow] at hstep
    cases hstep
    exact tracks_finish fun hstatus => .kept (happlied hstatus) (hkeeps (happlied hstatus))
  | working w specs error phase =>
    exact tracks_phase hd h.1 h.2 (Option.some.inj hstep)
  | reporting factKey result =>
    cases hstep
    by_cases hpublished : result.status.published = true
    · rw [if_pos hpublished]
      exact h
    · rw [if_neg hpublished]
      trivial
  | releasing | done => cases hstep
  | acquiring | beginning | replaying | requesting | loading | reading | waiting | resuming => exact h.elim

theorem tracks_move (hd : Decided v before c mutationId d decidedAt)
    (h : x.2.Tracks v before c mutationId d x.1)
    (hstep : CallState.move v x a = some x') : x'.2.Tracks v before c mutationId d x'.1 := by
  obtain ⟨s, st⟩ := x
  obtain ⟨s', st'⟩ := x'
  cases a with
  | goes now => exact tracks_step hd h hstep
  | fails effect errorCode =>
    cases st with
    | working w specs error phase =>
      have hfacts : (if effect then phase.effect s else s).facts = s.facts := by
        cases effect with
        | false => rfl
        | true => cases phase <;> rfl
      have hevidence : (if effect then phase.effect s else s).evidence = s.evidence := by
        cases effect with
        | false => rfl
        | true => cases phase <;> rfl
      have h' := h.2.of_same phase hfacts hevidence
      cases phase with
      | staging p =>
        cases hstep
        exact ⟨h.1, h'⟩
      | activating p rest | retiring p rest =>
        cases hstep
        exact tracks_nextActivation rest h.1 h'
      | _ => cases hstep
    | _ => cases hstep
  | raises effect =>
    cases st with
    | done => cases hstep
    | _ =>
      cases hstep
      trivial

theorem keeps_move (hnoop : d.decision = .noop) (h : x.2.Tracks v before c mutationId d x.1)
    (hkeeps : before.Keeps x.1 (v.factKey c))
    (hstep : CallState.move v x a = some x') : before.Keeps x'.1 (v.factKey c) := by
  have hworks {w : Work} (hw : w.For v c mutationId d) : False := by
    have := hw.writes
    rw [hnoop] at this
    cases this
  obtain ⟨s, st⟩ := x
  obtain ⟨s', st'⟩ := x'
  cases advance_effect hstep with
  | nothing => exact hkeeps
  | begun | decided => exact hkeeps.of_same rfl rfl
  | noted => exact hkeeps.appendEvidence _ _
  | reviewed =>
    have hreview := h.2.2.1
    rw [hnoop] at hreview
    cases hreview
  | marked | refinalized | wrote | applied | projected => exact (hworks h.1).elim

end Moves

/-! ### A whole call -/

variable {rest : List Answer}

section Calls

variable {v : MutationService} {before s' : Store} {c : MutationCommand} {st' : CallState}

variable {answers : List Answer}

variable {s : Store} {factKey : String}

theorem settled_run {ending : Except MemoryError MutationResult}
    (hrun : exec (CallState.move v) (s, .releasing factKey ending) answers = some (s', st')) :
    s' = s ∧ (st' = .releasing factKey ending ∨ ∃ e, st' = .done (.error e)) := by
  cases answers with
  | nil =>
    cases hrun
    exact ⟨rfl, .inl rfl⟩
  | cons a answers =>
    obtain ⟨m, hm, hrest⟩ := exec_cons_eq_some.mp hrun
    cases a with
    | goes | fails => cases hm
    | raises effect =>
      cases hm
      cases answers with
      | nil =>
        cases hrest
        exact ⟨rfl, .inr ⟨_, rfl⟩⟩
      | cons b answers =>
        obtain ⟨m, hm, -⟩ := exec_cons_eq_some.mp hrest
        cases b <;> cases hm

/-- When the policy is asked: in the third step of a call. -/
def decidedAt : List Answer → Option ℤ
  | _ :: _ :: .goes now :: _ => some now
  | _ => none

theorem mem_of_decidedAt (h : now ∈ decidedAt answers) : .goes now ∈ answers := by
  unfold decidedAt at h
  split at h
  · cases h
    simp
  · cases h

def Store.Replays (s : Store) (c : MutationCommand) : Prop :=
  ∃ row ∈ s.mutations.rows, row.command.idempotencyKey = c.idempotencyKey

instance (s : Store) (c : MutationCommand) : Decidable (s.Replays c) := by
  unfold Store.Replays
  infer_instance

/-- **How far a call has come**: it has looked and has no result yet, it replays a mutation, or the policy
has decided. -/
inductive Came (v : MutationService) (before : Store) (c : MutationCommand) (answers : List Answer)
    (s : Store) (st : CallState) : Prop
  | looked : before.Keeps s (v.factKey c) → (∀ factKey result, st ≠ .releasing factKey (.ok result)) →
      Came v before c answers s st
  | replayed : before.Replays c → s = before → Came v before c answers s st
  | decided {mutationId : ℕ} {d : MemoryDecision} {now : ℤ} : ¬ before.Replays c →
      now ∈ decidedAt answers → Decided v before c mutationId d now →
      st.Tracks v before c mutationId d s → (d.decision = .noop → before.Keeps s (v.factKey c)) →
      Came v before c answers s st

theorem Came.of_raised {e : MemoryError} (hkeeps : before.Keeps s (v.factKey c))
    (hrun : exec (CallState.move v) (s, .releasing factKey (.error e)) rest = some (s', st')) :
    Came v before c answers s' st' := by
  obtain ⟨rfl, hst⟩ := settled_run hrun
  refine .looked hkeeps fun factKey result hne => ?_
  rcases hst with rfl | ⟨e, rfl⟩ <;> cases hne

theorem Came.of_replaying {mutationId : ℕ} (hreplays : before.Replays c)
    (hrun : exec (CallState.move v) (before, .replaying mutationId factKey) rest = some (s', st')) :
    Came v before c answers s' st' := by
  cases rest with
  | nil =>
    cases hrun
    exact .replayed hreplays rfl
  | cons a rest =>
    obtain ⟨m, hm, hrest⟩ := exec_cons_eq_some.mp hrun
    cases a with
    | fails => cases hm
    | goes now =>
      cases hm
      exact .replayed hreplays (settled_run hrest).1
    | raises effect =>
      cases hm
      exact .replayed hreplays ((settled_run hrest).1.trans (ite_self before))

theorem Came.of_deciding {mutationId : ℕ} {d : MemoryDecision} (hfresh : ¬ before.Replays c)
    (hnow : now ∈ decidedAt answers) (hd : Decided v before c mutationId d now)
    (hkeeps : before.Keeps s (v.factKey c)) (hevidence : s.evidence = before.evidence)
    (hrun : exec (CallState.move v)
      (s, .deciding mutationId c (v.factKey c) d (s.loadFact (v.factKey c))) rest = some (s', st')) :
    Came v before c answers s' st' := by
  have htracks : CallState.Tracks v before c mutationId d s
      (.deciding mutationId c (v.factKey c) d (s.loadFact (v.factKey c))) :=
    ⟨⟨rfl, rfl, rfl, rfl⟩, hkeeps, hevidence⟩
  have hend := exec_preserves
    (I := fun x => x.2.Tracks v before c mutationId d x.1 ∧
      (d.decision = .noop → before.Keeps x.1 (v.factKey c)))
    (fun x a x' hx h => ⟨tracks_move hd hx.1 h, fun hnoop => keeps_move hnoop hx.1 (hx.2 hnoop) h⟩)
    hrun ⟨htracks, fun _ => hkeeps⟩
  exact .decided hfresh hnow hd hend.1 hend.2

theorem looking_step (hworks : ∀ w specs error phase, st ≠ .working w specs error phase)
    (hholds : st.holds = some (v.factKey c)) (hopen : ∀ factKey ending, st ≠ .releasing factKey ending)
    (hstep : CallState.move v (s, st) a = some x) :
    (∃ now, a = .goes now ∧ st.step v s now = some x) ∨
      x = (s, .releasing (v.factKey c) (.error .interrupted)) := by
  cases a with
  | goes now => exact .inl ⟨now, rfl, hstep⟩
  | fails effect errorCode =>
    cases st with
    | working w specs error phase => exact absurd rfl (hworks w specs error phase)
    | _ => cases hstep
  | raises effect =>
    right
    cases st with
    | working w specs error phase => exact absurd rfl (hworks w specs error phase)
    | releasing factKey ending => exact absurd rfl (hopen factKey ending)
    | done => cases hholds
    | _ =>
      cases hstep
      rw [hholds]
      simp [CallState.effect]

/-- A call begins with an error, with a replay, or with a mutation of its own. -/
theorem beginning_step (h : (beginning c factKey).step v s now = some x) :
    (∃ e, x = (s, .releasing factKey (.error e))) ∨
    (∃ i, s.Replays c ∧ x = (s, .replaying i factKey)) ∨
    ∃ i s₁, ¬ s.Replays c ∧ s.mutations.find i = none ∧ s₁.facts = s.facts ∧ s₁.evidence = s.evidence ∧
      x = (s₁, .requesting i c factKey) := by
  simp only [step, Store.beginOrReplay, Option.some.injEq] at h
  subst h
  cases hfind : s.mutations.rows.find? fun row => row.command.idempotencyKey = c.idempotencyKey with
  | some existing =>
    have hkey := List.find?_some hfind
    have hreplays : s.Replays c :=
      ⟨existing, List.mem_of_find?_eq_some hfind, of_decide_eq_true hkey⟩
    by_cases hpayload : existing.command.payloadFingerprint = c.payloadFingerprint
    · exact .inr (.inl ⟨existing.mutationId, hreplays, by simp [hpayload]⟩)
    · exact .inl ⟨.idempotencyConflict existing.command.idempotencyKey, by simp [hpayload]⟩
  | none =>
    have hfresh : ¬ s.Replays c := by
      rintro ⟨row, hrow, hkey⟩
      simpa [hkey] using List.find?_eq_none.mp hfind row hrow
    cases hadd : s.mutations.add (.requested c factKey s.nextId) with
    | none => exact .inl ⟨.interrupted, by simp⟩
    | some mutations =>
      exact .inr (.inr ⟨s.nextId, { s with mutations := mutations, nextId := s.nextId + 1 }, hfresh,
        Table.find_none_of_add hadd, rfl, rfl, by simp⟩)

theorem loading_step (h : (loading i c factKey).step v s now = some x) :
    (∃ e, x = (s, .releasing factKey (.error e))) ∨
    ∃ d, evaluateMutation (s.loadFact factKey) factKey c v.policySettings now = .ok d ∧
      x = (s, .deciding i c factKey d (s.loadFact factKey)) := by
  simp only [step, Option.some.injEq] at h
  subst h
  cases evaluateMutation (s.loadFact factKey) factKey c v.policySettings now with
  | error e => exact .inl ⟨e, rfl⟩
  | ok d => exact .inr ⟨d, rfl, rfl⟩

theorem Came.of_requesting {t : ℤ} (hfresh : ¬ before.Replays c) (hfind : before.mutations.find i = none)
    (hkeeps : before.Keeps s (v.factKey c)) (hevidence : s.evidence = before.evidence)
    (hrun : exec (CallState.move v) (s, .requesting i c (v.factKey c)) answers = some (s', st')) :
    Came v before c (.goes t :: answers) s' st' := by
  cases answers with
  | nil =>
    cases hrun
    exact .looked hkeeps fun _ _ h => by cases h
  | cons a answers =>
    obtain ⟨m, hm, hrest⟩ := exec_cons_eq_some.mp hrun
    rcases looking_step (c := c) (by simp) rfl (by simp) hm with ⟨t₁, rfl, hrequest⟩ | rfl
    · cases hrequest
      cases answers with
      | nil =>
        cases hrest
        exact .looked hkeeps fun _ _ h => by cases h
      | cons b answers =>
        obtain ⟨m, hm, hrest⟩ := exec_cons_eq_some.mp hrest
        rcases looking_step (c := c) (by simp) rfl (by simp) hm with ⟨now, rfl, hload⟩ | rfl
        · rcases loading_step hload with ⟨e, rfl⟩ | ⟨d, hd, rfl⟩
          · exact .of_raised hkeeps hrest
          · rw [hkeeps.loadFact] at hd
            exact .of_deciding hfresh rfl ⟨hd, hfind⟩ hkeeps hevidence hrest
        · exact .of_raised hkeeps hrest
    · exact .of_raised hkeeps hrest

theorem came_of_exec
    (hrun : exec (CallState.move v) (before, .beginning c (v.factKey c)) answers = some (s', st')) :
    Came v before c answers s' st' := by
  have hrefl := Store.Keeps.refl before (v.factKey c)
  cases answers with
  | nil =>
    cases hrun
    exact .looked hrefl fun _ _ h => by cases h
  | cons a answers =>
    obtain ⟨m, hm, hrest⟩ := exec_cons_eq_some.mp hrun
    rcases looking_step (c := c) (by simp) rfl (by simp) hm with ⟨t, rfl, hbegin⟩ | rfl
    · rcases beginning_step hbegin with ⟨e, rfl⟩ | ⟨i, hreplays, rfl⟩ |
        ⟨i, s₁, hfresh, hfind, hfacts, hevidence, rfl⟩
      · exact .of_raised hrefl hrest
      · exact .of_replaying hreplays hrest
      · exact .of_requesting hfresh hfind (hrefl.of_same hfacts hevidence) hevidence hrest
    · exact .of_raised hrefl hrest

end Calls

end CountyFlow.Memory
