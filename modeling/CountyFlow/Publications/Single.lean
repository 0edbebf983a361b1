import CountyFlow.Publications.System

/-!
# One publication for a task, and only of an approved dispatch

Publishers, workers and reviewers race for the row of a task.  What a publisher has read of it stays
true as long as it holds the lock, and whoever finds the publication of another answers with it.
-/

namespace CountyFlow.Publications

open CountyFlow.Lib Function
open CountyFlow.Worker (Db Dispatch)

variable {columns : ℕ → DispatchColumns} {stored : ℕ → ℕ} {config : Worker.WorkerConfig}

/-! ### What a call knows -/

/-- What a call has read holds: under the lock of its task, or of a publication, which stays. -/
def Reads (columns : ℕ → DispatchColumns) (stored : ℕ → ℕ) (s : System) (p : ℕ) : CallState → Prop
  | .looking loaded _ => (loaded.taskId, p) ∈ s.locks ∧
      s.db.tasks.find loaded.taskId = some loaded.task
  | .choosing loaded _ => (loaded.taskId, p) ∈ s.locks ∧
      s.db.tasks.find loaded.taskId = some loaded.task ∧ s.publications.find loaded.taskId = none
  | .auditing loaded _ dispatch => (loaded.taskId, p) ∈ s.locks ∧
      s.db.tasks.find loaded.taskId = some loaded.task ∧ s.publications.find loaded.taskId = none ∧
      latestDispatch s.db loaded.taskId = some dispatch
  | .composing loaded _ dispatch routeId => (loaded.taskId, p) ∈ s.locks ∧
      s.publications.find loaded.taskId = none ∧
      ∀ publication : DispatchPublication, publication.taskId = loaded.taskId →
        publication.dispatchId = dispatch.id → publication.routeId = routeId →
        Justified columns s.db publication
  | .inserting loaded publication => (loaded.taskId, p) ∈ s.locks ∧
      s.publications.find loaded.taskId = none ∧ publication.taskId = loaded.taskId ∧
      Justified columns s.db publication
  | .answering loaded publication duplicate => loaded.taskId = publication.taskId ∧
      ∃ row, s.publications.find loaded.taskId = some row ∧
        row = if duplicate then publication else publication.row stored
  | .returned r => ∃ row, s.publications.find r.taskId = some row ∧ r.Shows stored row
  | _ => True

/-- What the others leave to a call: its locks and what they lock, and every publication. -/
structure Keeps (s s' : System) (p : ℕ) : Prop where
  held : ∀ t, (t, p) ∈ s.locks → (t, p) ∈ s'.locks ∧ Unchanged s.db s'.db t ∧
    s'.publications.find t = s.publications.find t
  rows : ∀ t row, s.publications.find t = some row → s'.publications.find t = some row

theorem Keeps.reads {s s' : System} {p : ℕ} (h : Keeps s s' p) {st : CallState}
    (hst : Reads columns stored s p st) : Reads columns stored s' p st := by
  cases st with
  | looking loaded publisher =>
    obtain ⟨hlock, htask⟩ := hst
    obtain ⟨hlock', hsame, -⟩ := h.held _ hlock
    exact ⟨hlock', by rw [hsame.1]; exact htask⟩
  | choosing loaded publisher =>
    obtain ⟨hlock, htask, hnone⟩ := hst
    obtain ⟨hlock', hsame, hrows⟩ := h.held _ hlock
    exact ⟨hlock', by rw [hsame.1]; exact htask, by rw [hrows]; exact hnone⟩
  | auditing loaded publisher dispatch =>
    obtain ⟨hlock, htask, hnone, hdispatch⟩ := hst
    obtain ⟨hlock', hsame, hrows⟩ := h.held _ hlock
    exact ⟨hlock', by rw [hsame.1]; exact htask, by rw [hrows]; exact hnone,
      by rw [hsame.latestDispatch]; exact hdispatch⟩
  | composing loaded publisher dispatch routeId =>
    obtain ⟨hlock, hnone, hjustified⟩ := hst
    obtain ⟨hlock', hsame, hrows⟩ := h.held _ hlock
    refine ⟨hlock', by rw [hrows]; exact hnone, fun publication htask hid hroute => ?_⟩
    exact (hjustified publication htask hid hroute).kept (by rw [htask]; exact hsame)
  | inserting loaded publication =>
    obtain ⟨hlock, hnone, htask, hjustified⟩ := hst
    obtain ⟨hlock', hsame, hrows⟩ := h.held _ hlock
    exact ⟨hlock', by rw [hrows]; exact hnone, htask, hjustified.kept (by rw [htask]; exact hsame)⟩
  | answering loaded publication duplicate =>
    obtain ⟨htask, row, hrow, heq⟩ := hst
    exact ⟨htask, row, h.rows _ _ hrow, heq⟩
  | returned r =>
    obtain ⟨row, hrow, hshows⟩ := hst
    exact ⟨row, h.rows _ _ hrow, hshows⟩
  | _ => trivial

/-! ### A statement of a call -/

variable {t : String} {row : DispatchPublication} {q : ℕ}

section Moves

variable {s s' : System} {p : ℕ} {st st' : CallState}

theorem Moves.calls (h : Moves columns stored s p st st' s') : s'.calls = update s.calls p st' := by
  cases h <;> rfl

theorem Moves.db (h : Moves columns stored s p st st' s') : s'.db = s.db := by
  cases h <;> rfl

theorem Moves.publications (h : Moves columns stored s p st st' s') (t : String) :
    s'.publications.find t = s.publications.find t ∨
      ∃ loaded publication, st = .inserting loaded publication ∧
        st' = .answering loaded publication false ∧ t = publication.taskId ∧
        s.publications.find t = none ∧ s'.publications.find t = some (publication.row stored) := by
  cases h with
  | @inserted loaded publication publications hadd =>
    have hfind : publications.find t = if t = publication.taskId then
        some (publication.row stored) else s.publications.find t := Table.find_add hadd t
    have hfree := Table.find_none_of_add hadd
    have hnone : s.publications.find publication.taskId = none := hfree
    by_cases ht : t = publication.taskId
    · subst ht
      rw [if_pos rfl] at hfind
      exact .inr ⟨loaded, publication, rfl, rfl, rfl, hnone, hfind⟩
    · rw [if_neg ht] at hfind
      exact .inl hfind
  | _ => exact .inl rfl

theorem Moves.rows (h : Moves columns stored s p st st' s')
    (hrow : s.publications.find t = some row) : s'.publications.find t = some row := by
  rcases h.publications t with hsame | ⟨-, -, -, -, -, hnone, -⟩
  · rw [hsame]
    exact hrow
  · rw [hrow] at hnone
    cases hnone

theorem Moves.locks (h : Moves columns stored s p st st' s') (hne : q ≠ p)
    (hlock : (t, q) ∈ s.locks) : (t, q) ∈ s'.locks := by
  have hleft : (t, q) ∈ s.locks.filter fun lock => lock.2 ≠ p := by
    rw [List.mem_filter]
    exact ⟨hlock, by simpa using hne⟩
  cases h with
  | locked _ _ => exact List.mem_cons_of_mem _ hlock
  | inserted _ => exact hleft
  | refused => exact hleft
  | answered => exact hleft
  | raised => exact hleft
  | _ => exact hlock

theorem Moves.locks_before (h : Moves columns stored s p st st' s')
    (hlock : (t, q) ∈ s'.locks) : (t, q) ∈ s.locks ∨ (q = p ∧ s.locks.lookup t = none) := by
  cases h with
  | @locked taskId publisher loaded _ hfree =>
    rcases List.mem_cons.mp hlock with heq | hmem
    · obtain ⟨rfl, rfl⟩ := Prod.mk.inj heq
      exact .inr ⟨rfl, hfree⟩
    · exact .inl hmem
  | inserted _ => exact .inl (List.mem_of_mem_filter hlock)
  | refused => exact .inl (List.mem_of_mem_filter hlock)
  | answered => exact .inl (List.mem_of_mem_filter hlock)
  | raised => exact .inl (List.mem_of_mem_filter hlock)
  | _ => exact .inl hlock

theorem Moves.reads (h : Moves columns stored s p st st' s') (hst : Reads columns stored s p st) :
    Reads columns stored s' p st' := by
  cases h with
  | @locked taskId publisher loaded htask hfree =>
    have hkey : loaded.task.taskId = taskId := Table.find_key htask
    have hid : loaded.taskId = taskId := hkey
    refine ⟨?_, ?_⟩
    · rw [hid]
      exact List.mem_cons_self
    · rw [hid]
      exact htask
  | @found loaded publisher row hrow => exact ⟨(Table.find_key hrow).symm, row, hrow, rfl⟩
  | missing hnone => exact ⟨hst.1, hst.2, hnone⟩
  | chosen hdispatch => exact ⟨hst.1, hst.2.1, hst.2.2, hdispatch⟩
  | @approved loaded publisher dispatch audit routeId haudit hresult hstatus hroute =>
    obtain ⟨hlock, htask, hnone, hdispatch⟩ := hst
    refine ⟨hlock, hnone, fun publication hid hdispatchId hrouteId => ?_⟩
    refine ⟨loaded.task, dispatch, audit, ?_, hstatus, ?_, ?_, hresult, hdispatchId, ?_⟩
    · rw [hid]
      exact htask
    · rw [hid]
      exact hdispatch
    · rw [hid]
      exact haudit
    · rw [hrouteId]
      exact routeId_cases hroute
  | composed hid hdispatch hroute =>
    obtain ⟨hlock, hnone, hjustified⟩ := hst
    exact ⟨hlock, hnone, hid, hjustified _ hid hdispatch hroute⟩
  | @inserted loaded publication publications hadd =>
    obtain ⟨-, -, hid, -⟩ := hst
    refine ⟨hid.symm, publication.row stored, ?_, rfl⟩
    show publications.find loaded.taskId = _
    rw [Table.find_add hadd]
    exact if_pos hid.symm
  | refused => trivial
  | reread _ => trivial
  | @recovered loaded row hrow => exact ⟨(Table.find_key hrow).symm, row, hrow, rfl⟩
  | @answered loaded publication duplicate references =>
    obtain ⟨hid, row, hrow, heq⟩ := hst
    exact ⟨row, hrow, result_shows stored references hid heq⟩
  | raised => trivial

theorem Moves.keeps (h : Moves columns stored s p st st' s') (hst : Reads columns stored s p st)
    (halone : ∀ t q, (t, p) ∈ s.locks → (t, q) ∈ s.locks → q = p) (hne : q ≠ p) : Keeps s s' q := by
  refine ⟨fun t hlock => ⟨h.locks hne hlock, ?_, ?_⟩, fun t row hrow => h.rows hrow⟩
  · rw [h.db]
    exact .refl _ _
  · rcases h.publications t with hsame | ⟨loaded, publication, rfl, -, rfl, -⟩
    · exact hsame
    · obtain ⟨hmine, -, hid, -⟩ := hst
      rw [← hid] at hmine
      exact absurd (halone _ q hmine hlock) hne

end Moves

/-! ### Runs -/

variable {a : Action} {s₀ : System} {run : List Action}

namespace System

/-- Every call knows what it has read, and nobody shares a lock. -/
structure Sound (columns : ℕ → DispatchColumns) (stored : ℕ → ℕ) (s : System) : Prop where
  reads : ∀ p, Reads columns stored s p (s.calls p)
  alone : ∀ t p q, (t, p) ∈ s.locks → (t, q) ∈ s.locks → p = q

variable {s : System}

theorem sound_of_initial (h : s.Initial) : s.Sound columns stored := by
  refine ⟨fun p => ?_, fun t p q hlock => ?_⟩
  · rw [h.calls p]
    trivial
  · rw [h.locks] at hlock
    cases hlock

theorem notMem_of_lookup {locks : List (String × ℕ)} (h : locks.lookup t = none) (p : ℕ) :
    (t, p) ∉ locks := by
  intro hmem
  have hne := List.lookup_eq_none_iff.mp h (t, p) hmem
  simp at hne

variable {s' : System}

variable {p : ℕ}

theorem Sound.moves {st : CallState} (hs : s.Sound columns stored)
    (h : Moves columns stored s p (s.calls p) st s') : s'.Sound columns stored := by
  refine ⟨fun q => ?_, fun t q q' hlock hlock' => ?_⟩
  · rw [h.calls]
    by_cases hq : q = p
    · subst hq
      rw [update_self]
      exact h.reads (hs.reads q)
    · rw [update_of_ne hq]
      refine (h.keeps (hs.reads p) (fun t q hp hq => (hs.alone t p q hp hq).symm) hq).reads ?_
      exact hs.reads q
  · rcases h.locks_before hlock with hold | ⟨rfl, hfree⟩
    · rcases h.locks_before hlock' with hold' | ⟨rfl, hfree⟩
      · exact hs.alone t q q' hold hold'
      · exact absurd hold (notMem_of_lookup hfree q)
    · rcases h.locks_before hlock' with hold' | ⟨rfl, -⟩
      · exact absurd hold' (notMem_of_lookup hfree q')
      · rfl

theorem Sound.beside (hs : s.Sound columns stored) (hcalls : s'.calls = s.calls) (hlocks : s'.locks = s.locks)
    (hrows : s'.publications = s.publications)
    (hsame : ∀ lock ∈ s.locks, Unchanged s.db s'.db lock.1) : s'.Sound columns stored := by
  refine ⟨fun p => ?_, by rw [hlocks]; exact hs.alone⟩
  rw [hcalls]
  refine Keeps.reads ⟨fun t hlock => ⟨?_, hsame _ hlock, by rw [hrows]⟩, fun t row hrow => ?_⟩
    (hs.reads p)
  · rw [hlocks]
    exact hlock
  · rw [hrows]
    exact hrow

theorem write_eq {s₁ : System} (h : s.write s₁ = some s') :
    s' = s₁ ∧ ∀ lock ∈ s.locks, Unchanged s.db s'.db lock.1 := by
  unfold write at h
  split at h
  · rename_i hsame
    cases h
    exact ⟨rfl, hsame⟩
  · cases h

/-- A step is a statement of a call, starts a call, or leaves the calls and their locks alone. -/
theorem step_cases (h : step columns stored config s a = some s') :
    (∃ p st, ((∃ o, a = .advance p o) ∨ a = .fail p) ∧
        Moves columns stored s p (s.calls p) st s') ∨
      (∃ p t publisher, (a = .publish p t publisher ∨ a = .publishAutomatically p t) ∧
        s.calls p = .idle ∧ s' = s.goto p (.locking t publisher)) ∨
      (s'.calls = s.calls ∧ s'.locks = s.locks ∧ s'.publications = s.publications ∧
        ∀ lock ∈ s.locks, Unchanged s.db s'.db lock.1) := by
  cases a with
  | publish p t publisher =>
    simp only [step] at h
    split at h
    · rename_i hidle
      exact .inr (.inl ⟨p, t, publisher, .inl rfl, hidle, (Option.some.inj h).symm⟩)
    · cases h
  | publishAutomatically p t =>
    simp only [step] at h
    split at h
    · rename_i hidle
      exact .inr (.inl ⟨p, t, automaticPublisher, .inr rfl, hidle, (Option.some.inj h).symm⟩)
    · cases h
  | advance p o =>
    obtain ⟨st, hmoves⟩ := advance_moves h
    exact .inl ⟨p, st, .inl ⟨o, rfl⟩, hmoves⟩
  | fail p =>
    simp only [step] at h
    split at h
    · cases h
      exact .inl ⟨p, _, .inr rfl, .raised⟩
    · cases h
  | work action =>
    simp only [step] at h
    split at h
    · cases h
    · obtain ⟨rfl, hsame⟩ := write_eq h
      exact .inr (.inr ⟨rfl, rfl, rfl, hsame⟩)
  | auditLate t auditId result reason =>
    obtain ⟨rfl, hsame⟩ := write_eq h
    exact .inr (.inr ⟨rfl, rfl, rfl, hsame⟩)
  | refer references =>
    cases h
    exact .inr (.inr ⟨rfl, rfl, rfl, fun lock _ => .refl _ _⟩)

theorem step_sound (hs : s.Sound columns stored)
    (h : step columns stored config s a = some s') : s'.Sound columns stored := by
  rcases step_cases h with ⟨p, st, -, hmoves⟩ | ⟨p, t, publisher, -, -, rfl⟩ |
    ⟨hcalls, hlocks, hrows, hsame⟩
  · exact hs.moves hmoves
  · refine ⟨fun q => ?_, hs.alone⟩
    rw [calls_goto]
    by_cases hq : q = p
    · rw [hq, update_self]
      trivial
    · rw [update_of_ne hq]
      exact Keeps.reads ⟨fun t hlock => ⟨hlock, .refl _ _, rfl⟩, fun t row hrow => hrow⟩ (hs.reads q)
  · exact hs.beside hcalls hlocks hrows hsame

theorem sound_of_run (h₀ : s₀.Initial)
    (hrun : exec (step columns stored config) s₀ run = some s) : s.Sound columns stored :=
  exec_preserves (fun _ _ _ hs h => step_sound hs h) hrun (sound_of_initial h₀)

theorem step_rows (h : step columns stored config s a = some s') (hrow : s.publications.find t = some row) :
    s'.publications.find t = some row := by
  rcases step_cases h with ⟨p, st, -, hmoves⟩ | ⟨p, t, publisher, -, -, rfl⟩ | ⟨-, -, hrows, -⟩
  · exact hmoves.rows hrow
  · exact hrow
  · rw [hrows]
    exact hrow

/-! ### The inserting call -/

def taskOf : CallState → Option String
  | .locking t _ | .rereading t => some t
  | .looking loaded _ | .choosing loaded _ | .auditing loaded _ _ | .composing loaded _ _ _ |
    .inserting loaded _ | .finding loaded | .answering loaded _ _ => some loaded.taskId
  | .returned r => some r.taskId
  | .idle | .raised _ => none

/-- The task whose publication the call has inserted. -/
def insertedBy : CallState → Option String
  | .answering loaded _ false => some loaded.taskId
  | .returned r => if r.duplicate then none else some r.taskId
  | _ => none

theorem Moves.taskOf {st st' : CallState} (h : Moves columns stored s p st st' s') :
    taskOf st' = taskOf st ∨ taskOf st' = none := by
  cases h with
  | @locked taskId publisher loaded htask _ =>
    have hkey : loaded.task.taskId = taskId := Table.find_key htask
    exact .inl (congrArg some hkey)
  | reread hid => exact .inl (congrArg some hid)
  | raised => exact .inr rfl
  | _ => exact .inl rfl

theorem Moves.insertedBy {st st' : CallState} (h : Moves columns stored s p st st' s')
    (hst : Reads columns stored s p st) :
    insertedBy st' = insertedBy st ∨ (∃ error, st' = .raised error) ∨
      ∃ t, insertedBy st' = some t ∧ s.publications.find t = none ∧
        (s'.publications.find t).isSome := by
  cases h with
  | @inserted loaded publication publications hadd =>
    obtain ⟨-, hnone, hid, -⟩ := hst
    refine .inr (.inr ⟨loaded.taskId, rfl, hnone, ?_⟩)
    have hfind : publications.find loaded.taskId = if loaded.taskId = publication.taskId then
        some (publication.row stored) else s.publications.find loaded.taskId :=
      Table.find_add hadd _
    show (publications.find loaded.taskId).isSome
    rw [hfind, if_pos hid.symm]
    rfl
  | @answered loaded publication duplicate references => cases duplicate <;> exact .inl rfl
  | raised => exact .inr (.inl ⟨_, rfl⟩)
  | _ => exact .inl rfl

variable (columns stored config) in
/-- **The call inserts the publication** of the task in the course of the run. -/
def Inserts (s₀ : System) (run : List Action) (p : ℕ) (t : String) : Prop :=
  ∃ before o after s₁ s₂, run = before ++ .advance p o :: after ∧
    exec (step columns stored config) s₀ before = some s₁ ∧
    step columns stored config s₁ (.advance p o) = some s₂ ∧
    s₁.publications.find t = none ∧ (s₂.publications.find t).isSome

/-- The run calls for the publication of the task. -/
def Asks (run : List Action) (p : ℕ) (t : String) : Prop :=
  (∃ publisher, .publish p t publisher ∈ run) ∨ .publishAutomatically p t ∈ run

theorem Asks.append (h : Asks run p t) (a : Action) : Asks (run ++ [a]) p t := by
  rcases h with ⟨publisher, hmem⟩ | hmem
  · exact .inl ⟨publisher, List.mem_append_left _ hmem⟩
  · exact .inr (List.mem_append_left _ hmem)

theorem Inserts.append (h : Inserts columns stored config s₀ run p t) (a : Action) :
    Inserts columns stored config s₀ (run ++ [a]) p t := by
  obtain ⟨before, o, after, s₁, s₂, rfl, hrest⟩ := h
  exact ⟨before, o, after ++ [a], s₁, s₂, by simp, hrest⟩

/-- What a call is asked, and what it has inserted, are steps of the run. -/
theorem history_of_run (h₀ : s₀.Initial) (run : List Action) :
    ∀ s, exec (step columns stored config) s₀ run = some s → ∀ p t,
      (taskOf (s.calls p) = some t → Asks run p t) ∧
      (insertedBy (s.calls p) = some t → Inserts columns stored config s₀ run p t) := by
  induction run using List.reverseRecOn with
  | nil =>
    intro s hrun p t
    rw [exec_nil, Option.some.injEq] at hrun
    subst hrun
    rw [h₀.calls p]
    constructor
    · intro h
      cases h
    · intro h
      cases h
  | append_singleton run a ih =>
    intro s hrun p t
    obtain ⟨s₁, hbefore, hlast⟩ := exec_append_eq_some.mp hrun
    obtain ⟨s₂, hstep, hnil⟩ := exec_cons_eq_some.mp hlast
    rw [exec_nil, Option.some.injEq] at hnil
    subst hnil
    obtain ⟨hasked, hinserted⟩ := ih s₁ hbefore p t
    have hsound : s₁.Sound columns stored := sound_of_run h₀ hbefore
    rcases step_cases hstep with ⟨q, st, haction, hmoves⟩ | ⟨q, t', publisher, haction, -, rfl⟩ |
      ⟨hcalls, -⟩
    · rw [hmoves.calls]
      by_cases hq : p = q
      · subst hq
        rw [update_self]
        constructor
        · intro h
          rcases Moves.taskOf hmoves with hsame | hnone
          · exact (hasked (hsame ▸ h)).append a
          · rw [hnone] at h
            cases h
        · intro h
          rcases Moves.insertedBy hmoves (hsound.reads p) with hsame | ⟨error, rfl⟩ |
            ⟨t', hfresh, hnone, hsome⟩
          · exact (hinserted (hsame ▸ h)).append a
          · cases h
          · obtain rfl : t' = t := Option.some.inj (hfresh.symm.trans h)
            rcases haction with ⟨o, rfl⟩ | rfl
            · exact ⟨run, o, [], s₁, s₂, rfl, hbefore, hstep, hnone, hsome⟩
            · -- a failing call writes nothing
              simp only [step] at hstep
              split at hstep
              · cases hstep
                have hempty : (s₁.publications.find t').isSome := hsome
                rw [hnone] at hempty
                cases hempty
              · cases hstep
      · rw [update_of_ne hq]
        exact ⟨fun h => (hasked h).append a, fun h => (hinserted h).append a⟩
    · rw [calls_goto]
      by_cases hq : p = q
      · subst hq
        rw [update_self]
        constructor
        · intro h
          cases h
          rcases haction with rfl | rfl
          · exact .inl ⟨publisher, by simp⟩
          · exact .inr (by simp)
        · intro h
          cases h
      · rw [update_of_ne hq]
        exact ⟨fun h => (hasked h).append a, fun h => (hinserted h).append a⟩
    · rw [hcalls]
      exact ⟨fun h => (hasked h).append a, fun h => (hinserted h).append a⟩

/-- The call has inserted the publication of the task, or has raised since. -/
def Inserted (s : System) (p : ℕ) (t : String) : Prop :=
  insertedBy (s.calls p) = some t ∨ ∃ error, s.calls p = .raised error

/-- A call that has inserted its publication has done so for good. -/
theorem step_inserted (hp : s.Inserted p t)
    (h : step columns stored config s a = some s') : s'.Inserted p t := by
  rcases step_cases h with ⟨q, st, -, hmoves⟩ | ⟨q, t', publisher, -, hidle, rfl⟩ | ⟨hcalls, -⟩
  · unfold Inserted
    rw [hmoves.calls]
    by_cases hq : p = q
    · subst hq
      rw [update_self]
      generalize hst : s.calls p = before at hmoves
      unfold Inserted at hp
      rw [hst] at hp
      cases hmoves with
      | @answered loaded publication duplicate references =>
        rcases hp with hinserted | ⟨error, hraised⟩
        · left
          cases duplicate with
          | false => exact hinserted
          | true => cases hinserted
        · cases hraised
      | raised => exact .inr ⟨_, rfl⟩
      | _ =>
        rcases hp with hinserted | ⟨error, hraised⟩
        · cases hinserted
        · cases hraised
    · rw [update_of_ne hq]
      exact hp
  · unfold Inserted
    rw [calls_goto]
    by_cases hq : p = q
    · subst hq
      unfold Inserted at hp
      rw [hidle] at hp
      rcases hp with hinserted | ⟨error, hraised⟩
      · cases hinserted
      · cases hraised
    · rw [update_of_ne hq]
      exact hp
  · unfold Inserted
    rw [hcalls]
    exact hp

theorem inserted_of_inserts (h₀ : s₀.Initial) (hrun : exec (step columns stored config) s₀ run = some s)
    (h : Inserts columns stored config s₀ run p t) : s.Inserted p t := by
  obtain ⟨before, o, after, s₁, s₂, rfl, hbefore, hstep, hnone, hsome⟩ := h
  obtain ⟨s₁', hbefore', hrest⟩ := exec_append_eq_some.mp hrun
  rw [hbefore, Option.some.injEq] at hbefore'
  subst hbefore'
  obtain ⟨s₂', hstep', hafter⟩ := exec_cons_eq_some.mp hrest
  rw [hstep, Option.some.injEq] at hstep'
  subst hstep'
  refine exec_preserves (fun _ _ _ hp h => step_inserted hp h) hafter ?_
  obtain ⟨st, hmoves⟩ := advance_moves hstep
  rcases hmoves.publications t with hsame | ⟨loaded, publication, hst, rfl, rfl, -⟩
  · rw [hsame, hnone] at hsome
    cases hsome
  · have hread := (sound_of_run h₀ hbefore).reads p
    rw [hst] at hread
    left
    rw [hmoves.calls, update_self]
    exact congrArg some hread.2.2.1.symm

/-- A publication is inserted by a call, whose tables justify it. -/
theorem step_justified (hs : s.Sound columns stored) (h : step columns stored config s a = some s')
    (hnone : s.publications.find t = none) (hrow : s'.publications.find t = some row) :
    (∃ p o, a = .advance p o) ∧ Justified columns s.db row ∧ Justified columns s'.db row := by
  rcases step_cases h with ⟨p, st, haction, hmoves⟩ | ⟨p, t', publisher, -, -, rfl⟩ | ⟨-, -, hrows, -⟩
  · rcases hmoves.publications t with hsame | ⟨loaded, publication, hst, rfl, rfl, -, hfind⟩
    · rw [hsame, hnone] at hrow
      cases hrow
    · rw [hrow, Option.some.injEq] at hfind
      subst hfind
      have hread := hs.reads p
      rw [hst] at hread
      refine ⟨?_, hread.2.2.2, ?_⟩
      · rcases haction with ⟨o, rfl⟩ | rfl
        · exact ⟨p, o, rfl⟩
        · -- a failing call raises
          simp only [step] at h
          split at h
          · cases h
            have hempty : s.publications.find publication.taskId = some _ := hrow
            rw [hnone] at hempty
            cases hempty
          · cases h
      · rw [hmoves.db]
        exact hread.2.2.2
  · have hempty : s.publications.find t = some row := hrow
    rw [hnone] at hempty
    cases hempty
  · rw [hrows, hnone] at hrow
    cases hrow

/-- **Publication is single and only of approved dispatches.**  In every run of publishers, workers and
reviewers: a task has one publication at most, which stays as it is; the statement that inserts it does
so while the task is approved or completed and the latest audit record of its latest dispatch is an
approval, with the dispatch and its route; and every call that returns was asked about its task and
answers with that publication, as the first one exactly if the call has inserted it. -/
theorem published_once {s₀ s : System} {run : List Action} (h₀ : s₀.Initial)
    (hrun : exec (step columns stored config) s₀ run = some s) :
    (∀ row ∈ s.publications.rows, ∀ row' ∈ s.publications.rows, row.taskId = row'.taskId →
      row = row') ∧
    (∀ a s', step columns stored config s a = some s' → ∀ t,
      (∀ row, s.publications.find t = some row → s'.publications.find t = some row) ∧
      ∀ row, s.publications.find t = none → s'.publications.find t = some row →
        (∃ p o, a = .advance p o) ∧ Justified columns s.db row ∧ Justified columns s'.db row) ∧
    ∀ p r, s.calls p = .returned r → Asks run p r.taskId ∧
      (∃ row, s.publications.find r.taskId = some row ∧ r.Shows stored row) ∧
      (r.duplicate = false ↔ Inserts columns stored config s₀ run p r.taskId) := by
  have hsound : s.Sound columns stored := sound_of_run h₀ hrun
  refine ⟨?_, ?_, ?_⟩
  · intro row hrow row' hrow' hid
    have hfind := Table.find_of_mem hrow
    rw [hid, Table.find_of_mem hrow', Option.some.injEq] at hfind
    exact hfind.symm
  · intro a s' hstep t
    exact ⟨fun row hrow => step_rows hstep hrow,
      fun row hnone hrow => step_justified hsound hstep hnone hrow⟩
  · intro p r hreturned
    obtain ⟨hasked, hinserted⟩ := history_of_run h₀ run s hrun p r.taskId
    have hread := hsound.reads p
    rw [hreturned] at hasked hinserted hread
    refine ⟨hasked rfl, hread, ?_⟩
    constructor
    · intro hfirst
      refine hinserted ?_
      show (if r.duplicate then none else some r.taskId) = _
      rw [hfirst]
      rfl
    · intro h
      rcases inserted_of_inserts h₀ hrun h with hfresh | ⟨error, hraised⟩
      · rw [hreturned] at hfresh
        have hshown : (if r.duplicate then none else some r.taskId) = some r.taskId := hfresh
        cases hdup : r.duplicate with
        | false => rfl
        | true =>
          rw [hdup] at hshown
          cases hshown
      · rw [hreturned] at hraised
        cases hraised

/-! ### A race for an approved dispatch -/

/-- A task that waits for its review, with its dispatch and the record of the audit. -/
def reviewed : System where
  workers :=
    { world :=
        { db :=
            { tasks := ⟨[⟨"TASK-1", 1, "key-1", .reviewRequired, none, none⟩],
                List.nodup_singleton _⟩
              threads := fun _ => none
              dispatches := ⟨[⟨7, "TASK-1", .reviewRequired, 1⟩], List.nodup_singleton _⟩
              audits := [⟨1, "TASK-1", 7, .reviewRequired, "Manual review required."⟩] }
          locks := fun _ => none
          stream := fun _ => none
          deadLetters := [] }
      workers := fun _ => .idle }
  references :=
    { orders := fun _ => some ⟨"新平县中心仓", "北岭村驿站"⟩
      plateNo := fun _ => none
      driverName := fun _ => none
      employeeName := fun _ => none
      assigneeSubjectId := fun _ => none }
  publications := .empty
  locks := []
  calls := fun _ => .idle

theorem reviewed_initial : reviewed.Initial := ⟨rfl, fun _ => rfl⟩

/-- The dispatch moves the order to another route. -/
def rerouted (_ : ℕ) : DispatchColumns :=
  ⟨some "xinping-road", some "national-102", none, none, none, none⟩

/-- The reviewer approves; a supervisor and the worker publish, and the supervisor is first at the
lock. -/
def race : List Action :=
  let o : Outcome := ⟨some 1788091200000000, .commits⟩
  [.work (.decide "TASK-1" .approve none 2 100 true),
    .publish 0 "TASK-1" ⟨"test-supervisor", "Test Supervisor"⟩, .publishAutomatically 1 "TASK-1",
    .advance 0 o, .advance 0 o, .advance 0 o, .advance 0 o, .advance 0 o, .advance 0 o,
    .advance 1 o, .advance 1 o, .advance 0 o, .advance 1 o]

/-- Both calls return, with one publication. -/
theorem published_once_race : ∃ s r r' row row',
    exec (step rerouted id ⟨"worker-1", Worker.defaultRetryPolicy⟩) reviewed race = some s ∧
    s.calls 0 = .returned r ∧ s.calls 1 = .returned r' ∧
    (r.duplicate, r'.duplicate) = (false, true) ∧ (r.taskId, r'.taskId) = ("TASK-1", "TASK-1") ∧
    s.publications.find r.taskId = some row ∧ r.Shows id row ∧
    s.publications.find r'.taskId = some row' ∧ r'.Shows id row' := by
  have hrun : ((exec (step rerouted id ⟨"worker-1", Worker.defaultRetryPolicy⟩) reviewed race).map
      fun s => match s.calls 0, s.calls 1 with
        | .returned r, .returned r' => some ((r.duplicate, r'.duplicate), (r.taskId, r'.taskId))
        | _, _ => none) = some (some ((false, true), ("TASK-1", "TASK-1"))) := by decide +kernel
  obtain ⟨s, hs, hcalls⟩ := Option.map_eq_some_iff.mp hrun
  split at hcalls
  · rename_i r r' h₀ h₁
    obtain ⟨hduplicates, htasks⟩ := Prod.mk.inj (Option.some.inj hcalls)
    obtain ⟨row, hrow, hshows⟩ := ((published_once reviewed_initial hs).2.2 0 r h₀).2.1
    obtain ⟨row', hrow', hshows'⟩ := ((published_once reviewed_initial hs).2.2 1 r' h₁).2.1
    exact ⟨s, r, r', row, row', hs, h₀, h₁, hduplicates, htasks, hrow, hshows, hrow', hshows'⟩
  · cases hcalls

end System

end CountyFlow.Publications
