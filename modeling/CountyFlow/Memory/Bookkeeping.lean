import CountyFlow.Memory.System

/-!
# What rows and calls say about each other

A row keeps its fact, its command and, once taken, its decision with the two versions; only its
statuses move.  What a call carries from step to step is in the row of its mutation.
-/

namespace CountyFlow.Memory

open CountyFlow.Lib Function

/-! ### Rows -/

/-- The part of a row that no status goes into. -/
def Mutation.core (row : Mutation) :
    ℕ × String × MutationCommand × Option MutationDecision × Option ℕ × Option ℕ :=
  (row.mutationId, row.factKey, row.command, row.decision, row.beforeVersion, row.afterVersion)

theorem Mutation.core_setProjection (row : Mutation) (target : MemoryTarget)
    (status : ProjectionStatus) : (row.setProjection target status).core = row.core := by
  cases target <;> rfl

variable {phase : Phase}

theorem Phase.core_of_mark {f : Mutation → Mutation} (h : phase.mark = some f)
    (row : Mutation) : (f row).core = row.core := by
  cases phase with
  | applying | failing =>
    cases h
    rfl
  | settling | recording =>
    cases h
    exact Mutation.core_setProjection row _ _
  | _ => cases h

section CoreFields

variable {row row' : Mutation}

theorem Mutation.id_of_core (h : row'.core = row.core) : row'.mutationId = row.mutationId :=
  congrArg Prod.fst h

theorem Mutation.factKey_of_core (h : row'.core = row.core) : row'.factKey = row.factKey :=
  congrArg (fun x => x.2.1) h

theorem Mutation.command_of_core (h : row'.core = row.core) : row'.command = row.command :=
  congrArg (fun x => x.2.2.1) h

theorem Mutation.decision_of_core (h : row'.core = row.core) : row'.decision = row.decision :=
  congrArg (fun x => x.2.2.2.1) h

theorem Mutation.before_of_core (h : row'.core = row.core) : row'.beforeVersion = row.beforeVersion :=
  congrArg (fun x => x.2.2.2.2.1) h

theorem Mutation.after_of_core (h : row'.core = row.core) : row'.afterVersion = row.afterVersion :=
  congrArg (fun x => x.2.2.2.2.2) h

end CoreFields

variable {t : Table Mutation Mutation.mutationId} {i : ℕ}

theorem find_replace_row {row row' : Mutation} (hfind : t.find i = some row)
    (hid : row'.mutationId = row.mutationId) : (t.replace row').find i = some row' := by
  have hkey : row'.mutationId = i := hid.trans (Table.find_key hfind)
  rw [← hkey] at hfind ⊢
  exact Table.find_replace_self hfind

theorem find_replace_row_ne {j : ℕ} {row row' : Mutation} (hfind : t.find i = some row)
    (hid : row'.mutationId = row.mutationId) (hne : j ≠ i) : (t.replace row').find j = t.find j := by
  have hkey : row'.mutationId = i := hid.trans (Table.find_key hfind)
  exact Table.find_replace_ne _ _ (hkey ▸ hne)

theorem row_of_write {t' : Table Mutation Mutation.mutationId} {j : ℕ} {row old new : Mutation}
    (ht : t' = t.replace new) (hrow : t.find i = some row) (hold : t.find j = some old)
    (hid : new.mutationId = old.mutationId) :
    (t'.find i = some row) ∨ (j = i ∧ old = row ∧ t'.find i = some new) := by
  subst ht
  by_cases hj : i = j
  · subst hj
    rw [hold] at hrow
    exact .inr ⟨rfl, Option.some.inj hrow, find_replace_row hold hid⟩
  · rw [find_replace_row_ne hold hid hj]
    exact .inl hrow

variable {s s' : Store} {st : CallState}

namespace CallState

theorem Effect.row (h : Effect s st s') {row : Mutation}
    (hrow : s.mutations.find i = some row) : ∃ row', s'.mutations.find i = some row' ∧
      (row' = row ∨
        (∃ c factKey d current, st = .deciding i c factKey d current ∧ row' = row.decided d) ∨
        ∃ w specs error phase, st = .working w specs error phase ∧ w.mutationId = i ∧
          row'.core = row.core) := by
  have hwrite : ∀ {t' : Table Mutation Mutation.mutationId} {w : Work} {specs : List Projection}
      {error : Option String} {phase : Phase} {old new : Mutation},
      st = .working w specs error phase → t' = s.mutations.replace new →
      s.mutations.find w.mutationId = some old → new.core = old.core →
      ∃ row', t'.find i = some row' ∧ (row' = row ∨
        (∃ c factKey d current, st = .deciding i c factKey d current ∧ row' = row.decided d) ∨
        ∃ w specs error phase, st = .working w specs error phase ∧ w.mutationId = i ∧
          row'.core = row.core) := by
    intro t' w specs error phase old new hst ht hold hcore
    obtain hsame | ⟨hi, rfl, hnew⟩ := row_of_write ht hrow hold (Mutation.id_of_core hcore)
    · exact ⟨row, hsame, .inl rfl⟩
    · exact ⟨new, hnew, .inr (.inr ⟨w, specs, error, phase, hst, hi, hcore⟩)⟩
  cases h with
  | nothing => exact ⟨row, hrow, .inl rfl⟩
  | begun hnew hadd =>
    refine ⟨row, ?_, .inl rfl⟩
    show Table.find _ i = some row
    rw [Table.find_add hadd]
    split
    · rename_i hi
      have hnone := Table.find_none_of_add hadd
      rw [← hi, hrow] at hnone
      cases hnone
    · exact hrow
  | @decided mutationId c factKey d current old hold =>
    obtain hsame | ⟨rfl, rfl, hnew⟩ := row_of_write rfl hrow hold
      (show (old.decided d).mutationId = old.mutationId from rfl)
    · exact ⟨row, hsame, .inl rfl⟩
    · exact ⟨_, hnew, .inr (.inl ⟨c, factKey, d, current, rfl, rfl⟩)⟩
  | noted =>
    refine ⟨row, ?_, .inl rfl⟩
    unfold Store.appendEvidence
    split <;> exact hrow
  | reviewed now hnone => exact ⟨row, hrow, .inl rfl⟩
  | marked hmark hold => exact hwrite rfl rfl hold (Phase.core_of_mark hmark _)
  | refinalized hold hfact hfin => exact hwrite rfl rfl hold rfl
  | wrote now hold hnot hversion => exact hwrite rfl rfl hold rfl
  | applied hold hstatus hfact hversion => exact hwrite rfl rfl hold rfl
  | @projected w specs error phase =>
    refine ⟨row, ?_, .inl rfl⟩
    cases phase <;> exact hrow

theorem Effect.new_row (h : Effect s st s') {row : Mutation} (hrow : s'.mutations.find i = some row)
    (hnone : s.mutations.find i = none) :
    i = s.nextId ∧ s'.nextId = s.nextId + 1 ∧
      ∃ c factKey, st = .beginning c factKey ∧ row = .requested c factKey s.nextId := by
  have hwrite : ∀ {new : Mutation}, (s.mutations.replace new).find i = some row → False := by
    intro new hnew
    rw [Table.find_replace, hnone] at hnew
    split at hnew <;> cases hnew
  have hsame : s.mutations.find i = some row → False := by
    intro hfind
    rw [hnone] at hfind
    cases hfind
  cases h with
  | nothing => exact absurd hrow hsame
  | @begun c factKey mutations hnew hadd =>
    have hfind : mutations.find i = some row := hrow
    rw [Table.find_add hadd] at hfind
    split at hfind
    · rename_i hi
      exact ⟨hi, rfl, c, factKey, rfl, (Option.some.inj hfind).symm⟩
    · exact absurd hfind hsame
  | noted =>
    unfold Store.appendEvidence at hrow
    split at hrow <;> exact absurd hrow hsame
  | reviewed now hfact => exact absurd hrow hsame
  | decided hold => exact absurd hrow hwrite
  | marked hmark hold => exact absurd hrow hwrite
  | refinalized hold hfact hfin => exact absurd hrow hwrite
  | wrote now hold hnot hversion => exact absurd hrow hwrite
  | applied hold hstatus hfact hversion => exact absurd hrow hwrite
  | @projected w specs error phase => cases phase <;> exact absurd hrow hsame

theorem Effect.nextId (h : Effect s st s') : s.nextId ≤ s'.nextId := by
  cases h with
  | begun hnew hadd => exact Nat.le_succ _
  | noted =>
    unfold Store.appendEvidence
    split <;> exact le_rfl
  | @projected w specs error phase => cases phase <;> exact le_rfl
  | _ => exact le_rfl

end CallState

/-! ### What a call relies on -/

def Mutation.Recorded (v : MutationService) (h : History) (row : Mutation) (d : MemoryDecision)
    (current : Option FactSnapshot) : Prop :=
  ∃ now, ⟨row.mutationId, now, current, d⟩ ∈ h.decisions ∧
    evaluateMutation current row.factKey row.command v.policySettings now = .ok d

/-- A row without a decision is pending; with one it was taken by the policy, and a decision that
writes nothing has ended the mutation. -/
structure Mutation.Sound (v : MutationService) (h : History) (row : Mutation) : Prop where
  factKey : row.factKey = v.factKey row.command
  undecided : row.decision = none → row.status = .pending
  decided : ∀ x, row.decision = some x → ∃ d current, row.Recorded v h d current ∧
    d.decision = x ∧ row.beforeVersion = d.beforeVersion ∧ row.afterVersion = d.afterVersion
  ended : ∀ x, row.decision = some x → x.writes = false → row.status.finished = true

structure Work.Describes (w : Work) (row : Mutation) : Prop where
  factKey : row.factKey = w.factKey
  command : row.command = w.command
  before : row.beforeVersion = w.beforeVersion
  after : row.afterVersion = some w.afterVersion
  decision : ∃ x, row.decision = some x ∧ x.writes = true

/-- What was read from a row is still in it. -/
structure Mutation.Keeps (stored row : Mutation) : Prop where
  factKey : row.factKey = stored.factKey
  command : row.command = stored.command
  decision : ∀ x, stored.decision = some x → row.decision = some x ∧
    row.beforeVersion = stored.beforeVersion ∧ row.afterVersion = stored.afterVersion

variable {h : History}

namespace CallState

/-- The mutation a call has begun and not decided yet. -/
def creating : CallState → Option ℕ
  | .requesting mutationId _ _ | .loading mutationId _ _ | .deciding mutationId _ _ _ _ =>
    some mutationId
  | _ => none

/-- The mutation whose status a call may still write. -/
def driving : CallState → Option ℕ
  | .requesting mutationId _ _ | .loading mutationId _ _ | .deciding mutationId _ _ _ _ =>
    some mutationId
  | .evidencing mutationId _ _ d _ => if d.requiresProjection then some mutationId else none
  | .resuming stored => some stored.mutationId
  | .working w _ _ _ => some w.mutationId
  | _ => none

/-- What a call is about to begin. -/
def proposal : CallState → Option MutationCommand
  | .acquiring c _ | .beginning c _ => some c
  | _ => none

/-- **What a call may rely on.** -/
def Knows (v : MutationService) (s : Store) (h : History) : CallState → Prop
  | .acquiring c factKey | .beginning c factKey => factKey = v.factKey c
  | .replaying mutationId _ => ∃ row, s.mutations.find mutationId = some row
  | .requesting mutationId c factKey | .loading mutationId c factKey =>
    ∃ row, s.mutations.find mutationId = some row ∧ row.command = c ∧ row.factKey = factKey ∧
      row.decision = none
  | .deciding mutationId c factKey d current =>
    ∃ row, s.mutations.find mutationId = some row ∧ row.command = c ∧ row.factKey = factKey ∧
      row.decision = none ∧ row.Recorded v h d current
  | .evidencing mutationId c factKey d current =>
    ∃ row, s.mutations.find mutationId = some row ∧ row.command = c ∧ row.factKey = factKey ∧
      row.decision = some d.decision ∧ row.beforeVersion = d.beforeVersion ∧
      row.afterVersion = d.afterVersion ∧ row.Recorded v h d current
  | .reviewing mutationId c factKey =>
    ∃ row, s.mutations.find mutationId = some row ∧ row.command = c ∧ row.factKey = factKey ∧
      row.decision = some .conflictReview
  | .concluding mutationId _ =>
    ∃ row x, s.mutations.find mutationId = some row ∧ row.decision = some x ∧ x.writes = false
  | .waiting stored | .resuming stored =>
    stored.status.finished = false ∧ (∀ x, stored.decision = some x → x.writes = true) ∧
      ∃ row, s.mutations.find stored.mutationId = some row ∧ stored.Keeps row
  | .working w _ _ _ => ∃ row, s.mutations.find w.mutationId = some row ∧ w.Describes row
  | .reading _ | .reporting .. | .releasing .. | .done _ => True

theorem Effect.row_core {v : MutationService} (he : Effect s st s') (hk : st.Knows v s h) {row : Mutation}
    (hrow : s.mutations.find i = some row) (hstable : row.decision ≠ none ∨ st.creating ≠ some i) :
    ∃ row', s'.mutations.find i = some row' ∧ row'.core = row.core := by
  obtain ⟨row', hrow', rfl | ⟨c, factKey, d, current, rfl, -⟩ | ⟨w, specs, error, phase, -, -, hcore⟩⟩ :=
    he.row hrow
  · exact ⟨row', hrow', rfl⟩
  · obtain ⟨row₀, hrow₀, -, -, hnone, -⟩ := hk
    rw [hrow] at hrow₀
    cases hrow₀
    rcases hstable with hsome | hne
    · exact absurd hnone hsome
    · exact absurd rfl hne
  · exact ⟨row', hrow', hcore⟩

end CallState

variable {h' : History} {d : MemoryDecision} {current : Option FactSnapshot}

theorem Mutation.Recorded.mono {v : MutationService} {row row' : Mutation} (hr : row.Recorded v h d current)
    (hsub : h.decisions ⊆ h'.decisions) (hid : row'.mutationId = row.mutationId)
    (hkey : row'.factKey = row.factKey) (hcommand : row'.command = row.command) :
    row'.Recorded v h' d current := by
  obtain ⟨now, hmem, heval⟩ := hr
  refine ⟨now, ?_, ?_⟩
  · rw [hid]
    exact hsub hmem
  · rw [hkey, hcommand]
    exact heval

theorem Mutation.Recorded.of_core {v : MutationService} {row row' : Mutation}
    (hr : row.Recorded v h d current) (hsub : h.decisions ⊆ h'.decisions) (hcore : row'.core = row.core) :
    row'.Recorded v h' d current :=
  hr.mono hsub (id_of_core hcore) (factKey_of_core hcore) (command_of_core hcore)

theorem Work.Describes.of_core {w : Work} {row row' : Mutation} (hw : w.Describes row)
    (hcore : row'.core = row.core) : w.Describes row' where
  factKey := (Mutation.factKey_of_core hcore).trans hw.factKey
  command := (Mutation.command_of_core hcore).trans hw.command
  before := (Mutation.before_of_core hcore).trans hw.before
  after := (Mutation.after_of_core hcore).trans hw.after
  decision := by
    obtain ⟨x, hx, hwrites⟩ := hw.decision
    exact ⟨x, (Mutation.decision_of_core hcore).trans hx, hwrites⟩

variable {now : ℤ} {a : Answer}

namespace CallState

variable {v : MutationService}

/-- What a call relies on stays true while another one writes. -/
theorem Knows.mono {st₀ : CallState} (hk₀ : st₀.Knows v s h) (hk : st.Knows v s h) (he : Effect s st s')
    (hsub : h.decisions ⊆ h'.decisions)
    (hsole : ∀ i, st₀.creating = some i → st.creating ≠ some i) : st₀.Knows v s' h' := by
  cases st₀ with
  | acquiring | beginning => exact hk₀
  | replaying mutationId factKey =>
    obtain ⟨row, hrow⟩ := hk₀
    obtain ⟨row', hrow', -⟩ := he.row hrow
    exact ⟨row', hrow'⟩
  | requesting mutationId c factKey | loading mutationId c factKey =>
    obtain ⟨row, hrow, hcommand, hkey, hnone⟩ := hk₀
    obtain ⟨row', hrow', hcore⟩ := he.row_core hk hrow (.inr (hsole _ rfl))
    exact ⟨row', hrow', (Mutation.command_of_core hcore).trans hcommand,
      (Mutation.factKey_of_core hcore).trans hkey, (Mutation.decision_of_core hcore).trans hnone⟩
  | deciding mutationId c factKey d current =>
    obtain ⟨row, hrow, hcommand, hkey, hnone, hrec⟩ := hk₀
    obtain ⟨row', hrow', hcore⟩ := he.row_core hk hrow (.inr (hsole _ rfl))
    exact ⟨row', hrow', (Mutation.command_of_core hcore).trans hcommand,
      (Mutation.factKey_of_core hcore).trans hkey, (Mutation.decision_of_core hcore).trans hnone,
      hrec.of_core hsub hcore⟩
  | evidencing mutationId c factKey d current =>
    obtain ⟨row, hrow, hcommand, hkey, hsome, hbefore, hafter, hrec⟩ := hk₀
    obtain ⟨row', hrow', hcore⟩ := he.row_core hk hrow (.inl (by rw [hsome]; simp))
    exact ⟨row', hrow', (Mutation.command_of_core hcore).trans hcommand,
      (Mutation.factKey_of_core hcore).trans hkey, (Mutation.decision_of_core hcore).trans hsome,
      (Mutation.before_of_core hcore).trans hbefore, (Mutation.after_of_core hcore).trans hafter,
      hrec.of_core hsub hcore⟩
  | reviewing mutationId c factKey =>
    obtain ⟨row, hrow, hcommand, hkey, hsome⟩ := hk₀
    obtain ⟨row', hrow', hcore⟩ := he.row_core hk hrow (.inl (by rw [hsome]; simp))
    exact ⟨row', hrow', (Mutation.command_of_core hcore).trans hcommand,
      (Mutation.factKey_of_core hcore).trans hkey, (Mutation.decision_of_core hcore).trans hsome⟩
  | concluding mutationId factKey =>
    obtain ⟨row, x, hrow, hsome, hwrites⟩ := hk₀
    obtain ⟨row', hrow', hcore⟩ := he.row_core hk hrow (.inl (by rw [hsome]; simp))
    exact ⟨row', x, hrow', (Mutation.decision_of_core hcore).trans hsome, hwrites⟩
  | waiting stored | resuming stored =>
    obtain ⟨hfin, hwrites, row, hrow, hkeeps⟩ := hk₀
    refine ⟨hfin, hwrites, ?_⟩
    by_cases hdec : row.decision = none
    · -- nothing was recorded when it was read, so only fact and command have to stay
      have hstored : stored.decision = none := by
        by_contra hne
        obtain ⟨x, hx⟩ := Option.ne_none_iff_exists'.mp hne
        rw [(hkeeps.decision x hx).1] at hdec
        cases hdec
      have hnone : ∀ {row' : Mutation} (x : MutationDecision), stored.decision = some x →
          row'.decision = some x ∧ row'.beforeVersion = stored.beforeVersion ∧
            row'.afterVersion = stored.afterVersion := by
        intro row' x hx
        rw [hstored] at hx
        cases hx
      obtain ⟨row', hrow', rfl | ⟨c, factKey, d, current, -, rfl⟩ |
        ⟨w, specs, error, phase, -, -, hcore⟩⟩ := he.row hrow
      · exact ⟨_, hrow', hkeeps.factKey, hkeeps.command, hnone⟩
      · exact ⟨_, hrow', hkeeps.factKey, hkeeps.command, hnone⟩
      · exact ⟨row', hrow', (Mutation.factKey_of_core hcore).trans hkeeps.factKey,
          (Mutation.command_of_core hcore).trans hkeeps.command, hnone⟩
    · obtain ⟨row', hrow', hcore⟩ := he.row_core hk hrow (.inl hdec)
      refine ⟨row', hrow', (Mutation.factKey_of_core hcore).trans hkeeps.factKey,
        (Mutation.command_of_core hcore).trans hkeeps.command, ?_⟩
      intro x hx
      obtain ⟨hx', hbefore, hafter⟩ := hkeeps.decision x hx
      exact ⟨(Mutation.decision_of_core hcore).trans hx',
        (Mutation.before_of_core hcore).trans hbefore,
        (Mutation.after_of_core hcore).trans hafter⟩
  | working w specs error phase =>
    obtain ⟨row, hrow, hdesc⟩ := hk₀
    obtain ⟨x, hx, -⟩ := hdesc.decision
    obtain ⟨row', hrow', hcore⟩ := he.row_core hk hrow (.inl (by rw [hx]; simp))
    exact ⟨row', hrow', hdesc.of_core hcore⟩
  | reading | reporting | releasing | done => trivial

/-! ### The steps of one call -/

/-- The call goes on with the same work, or is about to end. -/
def Follows (w : Work) : CallState → Prop
  | .working w' _ _ _ => w' = w
  | .reporting .. | .releasing .. => True
  | _ => False

section Follows

variable {w : Work} {specs : List Projection} {error : Option String}

theorem follows_finish (factKey : String) (ending : Except MemoryError MutationResult) :
    Follows w (finish factKey ending) := by
  cases ending <;> trivial

theorem follows_staged : Follows w (staged w specs error) := by
  cases error <;> rfl

theorem follows_nextTarget (target : MemoryTarget) : Follows w (nextTarget w specs error target) := by
  cases target with
  | graph => exact follows_staged
  | vector =>
    simp only [nextTarget]
    split
    · rfl
    · exact follows_staged

theorem follows_firstTarget : Follows w (firstTarget w) := by
  unfold firstTarget
  split
  · rfl
  · exact follows_nextTarget _

theorem follows_nextActivation (rest : List Projection) : Follows w (nextActivation w specs error rest) := by
  cases rest with
  | cons p rest => rfl
  | nil => cases error <;> rfl

end Follows

variable {st' : CallState}

theorem follows_committed {w : Work} {factKey : String} {next : Mutation → CallState}
    {r : Except MemoryError (Store × Mutation)} (hnext : ∀ row, Follows w (next row))
    (h : committed factKey next s r = (s', st')) : Follows w st' := by
  cases r with
  | ok r =>
    cases h
    exact hnext _
  | error e =>
    cases h
    trivial

/-- Behind a phase the call goes on with its work, or is about to end. -/
theorem Phase.step_follows {w : Work} {specs : List Projection} {error : Option String}
    (h : phase.step s w specs error now = (s', st')) : Follows w st' := by
  cases phase with
  | applying => exact follows_committed (fun _ => follows_firstTarget) h
  | building target =>
    simp only [Phase.step] at h
    split at h <;> cases h
    · trivial
    · rfl
  | probing p =>
    simp only [Phase.step] at h
    split at h <;> (cases h; rfl)
  | staging p | activating p rest | retiring p rest =>
    cases h
    rfl
  | settling p status => exact follows_committed (fun _ => follows_nextTarget _) h
  | finalizing =>
    simp only [Phase.step] at h
    split at h <;> cases h
    · exact follows_nextActivation _
    · trivial
  | checking p rest =>
    simp only [Phase.step] at h
    split at h <;> cases h
    · exact follows_nextActivation _
    · rfl
  | recording p rest => exact follows_committed (fun _ => follows_nextActivation _) h
  | failing errorCode => exact follows_committed (fun _ => follows_finish _ _) h
  | closing => exact follows_committed (fun _ => follows_finish _ _) h

theorem Follows.knows {w : Work} (hst : Follows w st)
    (hrow : ∃ row, s.mutations.find w.mutationId = some row ∧ w.Describes row) : st.Knows v s h := by
  cases st with
  | working w' specs error phase =>
    have hw : w' = w := hst
    subst hw
    exact hrow
  | reporting | releasing => trivial
  | _ => exact hst.elim

theorem observe_decisions (v : MutationService) (s s' : Store) (h : History) (now : ℤ)
    (st : CallState) : h.decisions ⊆ (h.observe v s s' now st).decisions := by
  unfold History.observe
  split
  · split
    · exact List.subset_append_left _ _
    · exact List.Subset.refl _
  · split
    · split <;> exact List.Subset.refl _
    · exact List.Subset.refl _
  · exact List.Subset.refl _

theorem beginning_knows {c : MutationCommand} {factKey : String} (hk : (beginning c factKey).Knows v s h)
    (hstep : (beginning c factKey).step v s now = some (s', st')) :
    st'.Knows v s' (h.observe v s s' now (beginning c factKey)) := by
  have hkey : factKey = v.factKey c := hk
  simp only [step, Option.some.injEq] at hstep
  split at hstep <;> rename_i hbegin
  · obtain ⟨-, rfl⟩ := Prod.mk.inj hstep
    simp only [Store.beginOrReplay] at hbegin
    split at hbegin
    · rename_i row hfound
      split at hbegin <;> cases hbegin
      cases hstep
      exact ⟨row, Table.find_of_mem (List.mem_of_find?_eq_some hfound)⟩
    · split at hbegin <;> cases hbegin
  · simp only [Store.beginOrReplay] at hbegin
    split at hbegin
    · split at hbegin <;> cases hbegin
    · split at hbegin
      · rename_i mutations hadd
        cases hbegin
        cases hstep
        refine ⟨.requested c factKey s.nextId, ?_, rfl, rfl, rfl⟩
        exact (Table.find_add hadd _).trans (if_pos rfl)
      · cases hbegin
  · cases hstep
    trivial

theorem evidencing_knows {mutationId : ℕ} {c : MutationCommand} {factKey : String}
    (hk : (evidencing mutationId c factKey d current).Knows v s h)
    (hstep : (evidencing mutationId c factKey d current).step v s now = some (s', st')) :
    st'.Knows v s' (h.observe v s s' now (evidencing mutationId c factKey d current)) := by
  obtain ⟨-, hst'⟩ := Prod.mk.inj (Option.some.inj hstep)
  obtain ⟨row, hrow, hcommand, hkey, hdec, hbefore, hafter, hrec⟩ := hk
  have hrow' : s'.mutations.find mutationId = some row := by
    cases hstep
    unfold Store.appendEvidence
    split <;> exact hrow
  have hcases := evaluateMutation_cases hrec.choose_spec.2
  split at hst'
  · rename_i afterVersion hproj hsome
    subst hst'
    refine ⟨row, hrow', hkey, hcommand, hbefore, hafter.trans hsome, d.decision, hdec, ?_⟩
    rcases hcases with hw | hn
    · exact hw.1
    · rw [hproj] at hn
      cases hn.2
  · subst hst'
    trivial
  · rename_i hproj
    have hno : d.decision.writes = false := by
      rcases hcases with hw | hn
      · rw [hw.2.projects] at hproj
        cases hproj
      · exact hn.1
    split at hst'
    · rename_i hreview
      subst hst'
      exact ⟨row, hrow', hcommand, hkey, by rw [hdec, hreview.1]⟩
    · subst hst'
      exact ⟨row, d.decision, hrow', hdec, hno⟩

theorem reading_knows {mutationId : ℕ} (hrows : ∀ i row, s.mutations.find i = some row → row.Sound v h)
    (hstep : (reading mutationId).step v s now = some (s', st')) :
    st'.Knows v s' (h.observe v s s' now (reading mutationId)) := by
  simp only [step, Option.some.injEq, Store.getMutation] at hstep
  split at hstep
  · rename_i stored hstored
    split at hstored <;> cases hstored
    rename_i hfind
    split at hstep
    · cases hstep
      trivial
    · rename_i hfin
      cases hstep
      have hfind' : s.mutations.find stored.mutationId = some stored := by
        rw [Table.find_key hfind]
        exact hfind
      refine ⟨by simpa using hfin, ?_, stored, hfind', rfl, rfl, fun x hx => ⟨hx, rfl, rfl⟩⟩
      intro x hx
      by_contra hno
      have hended := (hrows _ _ hfind).ended x hx (by simpa using hno)
      exact hfin hended
  · cases hstep
    trivial

/-- What a call knows is true of the store, and stays true with each of its steps. -/
theorem step_knows (hrows : ∀ i row, s.mutations.find i = some row → row.Sound v h) (hk : st.Knows v s h)
    (hstep : st.step v s now = some (s', st')) : st'.Knows v s' (h.observe v s s' now st) := by
  have he := step_effect hstep
  cases st with
  | beginning c factKey => exact beginning_knows hk hstep
  | replaying mutationId factKey =>
    cases hstep
    trivial
  | requesting mutationId c factKey =>
    cases hstep
    exact hk
  | loading mutationId c factKey =>
    simp only [step, Option.some.injEq] at hstep
    obtain ⟨row, hrow, hcommand, hkey, hnone⟩ := hk
    split at hstep
    · rename_i d heval
      cases hstep
      refine ⟨row, hrow, hcommand, hkey, hnone, now, ?_, ?_⟩
      · simp only [History.observe, heval]
        rw [Table.find_key hrow]
        exact List.mem_append_right _ (List.mem_singleton.mpr rfl)
      · rw [hkey, hcommand]
        exact heval
    · cases hstep
      trivial
  | deciding mutationId c factKey d current =>
    obtain ⟨row, hrow, hcommand, hkey, hnone, hrec⟩ := hk
    simp only [step, Option.some.injEq, Store.recordDecision] at hstep
    obtain ⟨row', hrow', rfl, rfl⟩ | ⟨-, -, hlost⟩ := committed_setMutation hstep
    · rw [hrow] at hrow'
      cases hrow'
      have hid : (row.decided d).mutationId = row.mutationId := rfl
      exact ⟨row.decided d, find_replace_row hrow hid, hcommand, hkey, rfl, rfl, rfl,
        hrec.mono (List.Subset.refl _) rfl rfl rfl⟩
    · rw [hrow] at hlost
      cases hlost
  | evidencing mutationId c factKey d current => exact evidencing_knows hk hstep
  | reviewing mutationId c factKey =>
    obtain ⟨row, hrow, hcommand, hkey, hdec⟩ := hk
    obtain ⟨row', hrow', hcore⟩ := he.row_core (v := v) (h := h)
      ⟨row, hrow, hcommand, hkey, hdec⟩ hrow (.inl (by rw [hdec]; simp))
    cases hstep
    exact ⟨row', .conflictReview, hrow', (Mutation.decision_of_core hcore).trans hdec, rfl⟩
  | concluding mutationId factKey =>
    obtain ⟨-, rfl⟩ := Prod.mk.inj (Option.some.inj hstep)
    unfold finish
    split <;> trivial
  | reading mutationId => exact reading_knows hrows hstep
  | resuming stored =>
    obtain ⟨-, hst'⟩ := Prod.mk.inj (Option.some.inj hstep)
    obtain ⟨hfin, hwrites, row, hrow, hkeeps⟩ := hk
    cases hstep
    unfold MutationService.resume
    split
    · trivial
    · split
      · rename_i x afterVersion hx hafter
        obtain ⟨hx', hbefore', hafter'⟩ := hkeeps.decision x hx
        exact ⟨row, hrow, hkeeps.factKey, hkeeps.command, hbefore', hafter'.trans hafter, x, hx',
          hwrites x hx⟩
      · trivial
  | working w specs error phase =>
    obtain ⟨row, hrow, hdesc⟩ := hk
    obtain ⟨x, hx, -⟩ := hdesc.decision
    obtain ⟨row', hrow', hcore⟩ := he.row_core (v := v) (h := h) ⟨row, hrow, hdesc⟩ hrow
      (.inl (by rw [hx]; simp))
    simp only [step, Option.some.injEq] at hstep
    exact (Phase.step_follows hstep).knows ⟨row', hrow', hdesc.of_core hcore⟩
  | reporting factKey result =>
    cases hstep
    trivial
  | acquiring | waiting | releasing | done => cases hstep

theorem record_decisions (v : MutationService) (s s' : Store) (h : History) (st : CallState)
    (a : Answer) : h.decisions ⊆ (h.record v s s' st a).decisions := by
  cases a with
  | goes now => exact observe_decisions v s s' h now st
  | _ => exact List.Subset.refl _

theorem advance_knows (hrows : ∀ i row, s.mutations.find i = some row → row.Sound v h) (hk : st.Knows v s h)
    (hstep : st.advance v s a = some (s', st')) : st'.Knows v s' (h.record v s s' st a) := by
  cases a with
  | goes now => exact step_knows hrows hk hstep
  | fails effect errorCode =>
    have he := advance_effect hstep
    cases st with
    | working w specs error phase =>
      obtain ⟨row, hrow, hdesc⟩ := hk
      obtain ⟨x, hx, -⟩ := hdesc.decision
      obtain ⟨row', hrow', hcore⟩ := he.row_core (v := v) (h := h) ⟨row, hrow, hdesc⟩ hrow
        (.inl (by rw [hx]; simp))
      have hfollows : Follows w st' := by
        cases phase with
        | staging =>
          cases hstep
          rfl
        | activating | retiring =>
          cases hstep
          exact follows_nextActivation _
        | _ => cases hstep
      exact hfollows.knows ⟨row', hrow', hdesc.of_core hcore⟩
    | _ => cases hstep
  | raises effect =>
    cases st with
    | done => cases hstep
    | _ =>
      cases hstep
      trivial

/-- The next state of a call begins nothing, and it has nothing in hand but what the state before it
had or `begin_or_replay` gave it. -/
structure Onward (s : Store) (st st' : CallState) : Prop where
  proposal : st'.proposal = none
  creating : ∀ i, st'.creating = some i → st.creating = some i ∨ i = s.nextId
  driving : ∀ i, st'.driving = some i → st.driving = some i ∨ i = s.nextId
  working : ∀ w specs error phase, st' = .working w specs error phase →
    (specs = [] ∧ error = none ∧ phase = .applying) ∨
      ∃ specs' error' phase', st = .working w specs' error' phase'

theorem Onward.of_none (hp : st'.proposal = none) (hc : st'.creating = none)
    (hd : st'.driving = none) : Onward s st st' := by
  refine ⟨hp, fun i hi => ?_, fun i hi => ?_, fun w specs error phase hst' => ?_⟩
  · rw [hc] at hi
    cases hi
  · rw [hd] at hi
    cases hi
  · rw [hst'] at hd
    cases hd

theorem Follows.onward {w : Work} {specs : List Projection} {error : Option String}
    (h : Follows w st') : Onward s (.working w specs error phase) st' := by
  cases st' with
  | working w' specs' error' phase' =>
    have hw : w' = w := h
    subst hw
    refine ⟨rfl, fun i hi => (by cases hi), fun i hi => .inl hi, fun w₁ _ _ _ hst' => ?_⟩
    cases hst'
    exact .inr ⟨specs, error, phase, rfl⟩
  | reporting | releasing => exact .of_none rfl rfl rfl
  | _ => exact h.elim

/-- A call begins nothing anew, and has in hand what it had or was given. -/
theorem advance_onward (hstep : st.advance v s a = some (s', st')) : Onward s st st' := by
  cases a with
  | goes now =>
    cases st with
    | beginning c factKey =>
      simp only [advance, step, Option.some.injEq, Store.beginOrReplay] at hstep
      split at hstep <;> rename_i hbegin
      · cases hstep
        exact .of_none rfl rfl rfl
      · split at hbegin
        · split at hbegin <;> cases hbegin
        · split at hbegin <;> cases hbegin
          cases hstep
          exact ⟨rfl, fun i hi => .inr (Option.some.inj hi).symm,
            fun i hi => .inr (Option.some.inj hi).symm, fun _ _ _ _ hst' => (by cases hst')⟩
      · cases hstep
        exact .of_none rfl rfl rfl
    | requesting =>
      cases hstep
      exact ⟨rfl, fun i hi => .inl hi, fun i hi => .inl hi, fun _ _ _ _ hst' => (by cases hst')⟩
    | loading =>
      simp only [advance, step, Option.some.injEq] at hstep
      split at hstep <;> cases hstep
      · exact ⟨rfl, fun i hi => .inl hi, fun i hi => .inl hi,
          fun _ _ _ _ hst' => (by cases hst')⟩
      · exact .of_none rfl rfl rfl
    | deciding mutationId c factKey d current =>
      simp only [advance, step, Option.some.injEq, Store.recordDecision] at hstep
      obtain ⟨row, -, rfl, -⟩ | ⟨-, rfl, -⟩ := committed_setMutation hstep
      · refine ⟨rfl, fun i hi => (by cases hi), fun i hi => ?_,
          fun _ _ _ _ hst' => (by cases hst')⟩
        simp only [driving] at hi
        split at hi <;> cases hi
        exact .inl rfl
      · exact .of_none rfl rfl rfl
    | evidencing mutationId c factKey d current =>
      simp only [advance, step, Option.some.injEq, Prod.mk.injEq] at hstep
      obtain ⟨-, rfl⟩ := hstep
      split
      · rename_i hproj _
        refine ⟨rfl, fun i hi => (by cases hi), fun i hi => .inl ?_, fun _ _ _ _ hst' => ?_⟩
        · simp only [driving, hproj, if_true]
          exact hi
        · cases hst'
          exact .inl ⟨rfl, rfl, rfl⟩
      · exact .of_none rfl rfl rfl
      · split <;> exact .of_none rfl rfl rfl
    | concluding mutationId factKey =>
      simp only [advance, step, Option.some.injEq, Prod.mk.injEq] at hstep
      obtain ⟨-, rfl⟩ := hstep
      unfold finish
      split <;> exact .of_none rfl rfl rfl
    | reading =>
      simp only [advance, step, Option.some.injEq] at hstep
      split at hstep
      · split at hstep <;> (cases hstep; exact .of_none rfl rfl rfl)
      · cases hstep
        exact .of_none rfl rfl rfl
    | resuming stored =>
      simp only [advance, step, Option.some.injEq, Prod.mk.injEq] at hstep
      obtain ⟨-, rfl⟩ := hstep
      unfold MutationService.resume
      split
      · exact .of_none rfl rfl rfl
      · split
        · refine ⟨rfl, fun i hi => (by cases hi), fun i hi => .inl hi, fun _ _ _ _ hst' => ?_⟩
          cases hst'
          exact .inl ⟨rfl, rfl, rfl⟩
        · exact .of_none rfl rfl rfl
    | working w specs error phase =>
      simp only [advance, step, Option.some.injEq] at hstep
      exact (Phase.step_follows hstep).onward
    | replaying | reviewing | reporting =>
      cases hstep
      exact .of_none rfl rfl rfl
    | acquiring | waiting | releasing | done => cases hstep
  | fails effect errorCode =>
    cases st with
    | working w specs error phase =>
      cases phase with
      | staging =>
        cases hstep
        exact Follows.onward rfl
      | activating | retiring =>
        cases hstep
        exact (follows_nextActivation _).onward
      | _ => cases hstep
    | _ => cases hstep
  | raises effect =>
    cases st with
    | done => cases hstep
    | _ =>
      cases hstep
      exact .of_none rfl rfl rfl

end CallState

/-! ### The invariant of every run -/

variable {o : Option CallState} {sys : System}

namespace System

/-- Rows and calls agree, ids are fresh, and a mutation is decided by one call only. -/
structure Sound (v : MutationService) (sys : System) : Prop where
  rows : ∀ i row, sys.store.mutations.find i = some row → row.Sound v sys.history
  fresh : ∀ i row, sys.store.mutations.find i = some row → i < sys.store.nextId
  knows : ∀ call st, sys.calls call = some st → st.Knows v sys.store sys.history
  sole : ∀ a b sa sb i, sys.calls a = some sa → sys.calls b = some sb → sa.creating = some i →
    sb.creating = some i → a = b

theorem sound_initial (v : MutationService) : Sound v initial where
  rows := fun i row h => by cases h
  fresh := fun i row h => by cases h
  knows := fun call st h => by cases h
  sole := fun a b sa sb i h => by cases h

variable {st' : CallState}

theorem calls_update {calls : ℕ → Option CallState} {call a : ℕ} {sa : CallState}
    (h : update calls call (some st') a = some sa) :
    (a = call ∧ sa = st') ∨ (a ≠ call ∧ calls a = some sa) := by
  by_cases ha : a = call
  · subst ha
    rw [update_self] at h
    exact .inl ⟨rfl, (Option.some.inj h).symm⟩
  · rw [update_of_ne ha] at h
    exact .inr ⟨ha, h⟩

variable {v : MutationService}

theorem creating_of_startState (request : Request) : (startState v request).creating = none := by
  cases request with
  | resumeMutation mutationId => rfl
  | mutate c =>
    simp only [startState]
    split
    · rfl
    · split <;> rfl

theorem Quiet.creating (h : Quiet v o st') : st'.creating = none := by
  cases h with
  | starts request => exact creating_of_startState request
  | acquires | resumes | ends => rfl

theorem Quiet.knows {hist : History} (h : Quiet v o st')
    (hk : ∀ st ∈ o, st.Knows v s hist) : st'.Knows v s hist := by
  cases h with
  | starts request =>
    cases request with
    | resumeMutation mutationId => trivial
    | mutate c =>
      simp only [startState]
      split
      · trivial
      · split
        · trivial
        · rfl
  | acquires c factKey => exact hk (.acquiring c factKey) rfl
  | resumes stored => exact hk (.waiting stored) rfl
  | ends ending hlock => trivial

theorem Effect.row_sound (he : st.Effect s s') (hk : st.Knows v s h) (hsub : h.decisions ⊆ h'.decisions)
    (hrows : ∀ i row, s.mutations.find i = some row → row.Sound v h) {row' : Mutation}
    (hrow' : s'.mutations.find i = some row') : row'.Sound v h' := by
  cases hfind : s.mutations.find i with
  | none =>
    obtain ⟨rfl, -, c, factKey, rfl, rfl⟩ := he.new_row hrow' hfind
    exact ⟨hk, fun _ => rfl, fun x hx => (by cases hx), fun x hx => (by cases hx)⟩
  | some row =>
    have hsound := hrows i row hfind
    obtain ⟨row₁, hrow₁, hcases⟩ := he.row hfind
    rw [hrow'] at hrow₁
    cases hrow₁
    rcases hcases with rfl | ⟨c, factKey, d, current, rfl, rfl⟩ |
      ⟨w, specs, error, phase, rfl, rfl, hcore⟩
    · refine ⟨hsound.factKey, hsound.undecided, fun x hx => ?_, hsound.ended⟩
      obtain ⟨d, current, hrec, hd⟩ := hsound.decided x hx
      exact ⟨d, current, hrec.mono hsub rfl rfl rfl, hd⟩
    · obtain ⟨row₀, hrow₀, -, -, -, hrec⟩ := hk
      rw [hfind] at hrow₀
      cases hrow₀
      refine ⟨hsound.factKey, fun hx => (by cases hx), fun x hx => ?_, fun x hx hno => ?_⟩
      · cases hx
        exact ⟨d, current, hrec.mono hsub rfl rfl rfl, rfl, rfl, rfl⟩
      · obtain rfl : d.decision = x := Option.some.inj hx
        show (row.decided d).status.finished = true
        unfold Mutation.decided
        cases hd : d.decision with
        | reject | conflictReview | noop => rfl
        | create | merge | replace =>
          rw [hd] at hno
          cases hno
    · obtain ⟨row₀, hrow₀, hdesc⟩ := hk
      rw [hfind] at hrow₀
      cases hrow₀
      obtain ⟨y, hy, hwrites⟩ := hdesc.decision
      have hdec := Mutation.decision_of_core hcore
      refine ⟨?_, fun hnone => ?_, fun x hx => ?_, fun x hx hno => ?_⟩
      · rw [Mutation.factKey_of_core hcore, Mutation.command_of_core hcore]
        exact hsound.factKey
      · rw [hdec, hy] at hnone
        cases hnone
      · rw [hdec] at hx
        obtain ⟨d, current, hrec, hd, hbefore, hafter⟩ := hsound.decided x hx
        exact ⟨d, current, hrec.of_core hsub hcore, hd,
          (Mutation.before_of_core hcore).trans hbefore,
          (Mutation.after_of_core hcore).trans hafter⟩
      · rw [hdec, hy] at hx
        cases hx
        rw [hwrites] at hno
        cases hno

theorem Sound.of_effect (hs : Sound v sys) {call : ℕ} {locks : String → Option ℕ}
    (hst : sys.calls call = some st) (he : st.Effect sys.store s')
    (hsub : sys.history.decisions ⊆ h'.decisions) (hk' : st'.Knows v s' h')
    (hc : ∀ i, st'.creating = some i → st.creating = some i ∨ i = sys.store.nextId) :
    Sound v ⟨s', locks, update sys.calls call (some st'), h'⟩ := by
  have hk := hs.knows call st hst
  refine ⟨fun i row' hrow' => ?_, fun i row' hrow' => ?_, fun a sa ha => ?_,
    fun a b sa sb i ha hb hca hcb => ?_⟩
  · exact Effect.row_sound he hk hsub hs.rows hrow'
  · cases hfind : sys.store.mutations.find i with
    | none =>
      obtain ⟨rfl, hnext, -⟩ := he.new_row hrow' hfind
      show sys.store.nextId < s'.nextId
      omega
    | some row => exact lt_of_lt_of_le (hs.fresh i row hfind) he.nextId
  · obtain ⟨-, rfl⟩ | ⟨hne, ha⟩ := calls_update ha
    · exact hk'
    · refine (hs.knows a sa ha).mono hk he hsub fun i hi hi' => ?_
      exact hne (hs.sole a call sa st i ha hst hi hi')
  · -- a fresh id is in no other call's hands
    have hother : ∀ c sc, sys.calls c = some sc → c ≠ call → sc.creating = some i →
        st'.creating = some i → False := by
      intro c sc hcall hne hci hi
      rcases hc i hi with hold | rfl
      · exact hne (hs.sole c call sc st i hcall hst hci hold)
      · have hknow := hs.knows c sc hcall
        have hrow : ∃ row, sys.store.mutations.find sys.store.nextId = some row := by
          cases sc with
          | requesting | loading =>
            cases hci
            obtain ⟨row, hrow, -⟩ := hknow
            exact ⟨row, hrow⟩
          | deciding =>
            cases hci
            obtain ⟨row, hrow, -⟩ := hknow
            exact ⟨row, hrow⟩
          | _ => cases hci
        obtain ⟨row, hrow⟩ := hrow
        exact absurd (hs.fresh _ row hrow) (lt_irrefl _)
    rcases calls_update ha with ⟨hac, hsa⟩ | ⟨hnea, ha'⟩
    · rcases calls_update hb with ⟨hbc, -⟩ | ⟨hneb, hb'⟩
      · rw [hac, hbc]
      · rw [hsa] at hca
        exact (hother b sb hb' hneb hcb hca).elim
    · rcases calls_update hb with ⟨-, hsb⟩ | ⟨hneb, hb'⟩
      · rw [hsb] at hcb
        exact (hother a sa ha' hnea hca hcb).elim
      · exact hs.sole a b sa sb i ha' hb' hca hcb

/-- Rows and calls go on agreeing. -/
theorem Sound.step {sys' : System} {a : Action} (hs : Sound v sys)
    (h : System.step v sys a = some sys') : Sound v sys' := by
  cases step_moves h with
  | @quiet _ call st' locks hquiet =>
    have hk' : st'.Knows v sys.store sys.history :=
      hquiet.knows fun st hst => hs.knows call st hst
    refine ⟨hs.rows, hs.fresh, fun a sa ha => ?_, fun a b sa sb i ha hb hca hcb => ?_⟩
    · obtain ⟨-, rfl⟩ | ⟨-, ha⟩ := calls_update ha
      · exact hk'
      · exact hs.knows a sa ha
    · obtain ⟨-, rfl⟩ | ⟨-, ha⟩ := calls_update ha
      · rw [hquiet.creating] at hca
        cases hca
      · obtain ⟨-, rfl⟩ | ⟨-, hb⟩ := calls_update hb
        · rw [hquiet.creating] at hcb
          cases hcb
        · exact hs.sole a b sa sb i ha hb hca hcb
  | advances hst hadv =>
    exact hs.of_effect hst (CallState.advance_effect hadv)
      (CallState.record_decisions v _ _ _ _ _)
      (CallState.advance_knows hs.rows (hs.knows _ _ hst) hadv)
      (CallState.advance_onward hadv).creating
  | @crashes call effect st hst =>
    exact hs.of_effect hst (CallState.effect_if sys.store st effect) (List.Subset.refl _) trivial
      fun i hi => (by cases hi)
  | expires => exact ⟨hs.rows, hs.fresh, hs.knows, hs.sole⟩

theorem sound_of_exec {acts : List Action} (h : exec (System.step v) initial acts = some sys) : Sound v sys :=
  exec_preserves (fun _ _ _ hs hstep => hs.step hstep) h (sound_initial v)

end System

end CountyFlow.Memory
