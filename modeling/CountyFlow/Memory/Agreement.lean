import CountyFlow.Memory.Projections

/-!
# Projections and facts in a sequence of calls

Calls that come one after another leave the projections of a fact in step with it as long as no
operation meets a projection in its way: a slot is named by the version a mutation is about to
write, so two mutations that saw the same version stage into one slot.
-/

namespace CountyFlow.Memory

open CountyFlow.Lib Function

/-! ### What a working call has done -/

/-- The projection is in its slot and still usable. -/
def Store.Present (s : Store) (p : Projection) : Prop :=
  ⟨p, .staged⟩ ∈ s.projections.rows ∨ ⟨p, .active⟩ ∈ s.projections.rows

namespace Work

def Covers (w : Work) (specs : List Projection) (target : MemoryTarget) : Prop :=
  target ∈ w.command.targets → ∃ p ∈ specs, p.slot.target = target

/-- The call stages: so far there is nothing that is not present, but maybe the one it is at. -/
structure Staging (w : Work) (s : Store) (specs : List Projection) (error : Option String)
    (p : Projection) : Prop where
  mem : p ∈ specs
  covers : p.slot.target = .graph → w.Covers specs .vector
  present : error = none → ∀ q ∈ specs, q ≠ p → s.Present q

/-- The call activates: the projections in `rest` are to come, the others are foremost. -/
structure Activating (w : Work) (s : Store) (specs : List Projection) (error : Option String)
    (rest : List Projection) : Prop where
  mine : w.Mine s
  covers : ∀ target, w.Covers specs target
  subset : rest ⊆ specs
  passed : error = none → ∀ q ∈ specs, (q ∈ rest ∧ s.Present q) ∨ s.Foremost q

end Work

/-- What has been done when a working call gets to a phase. -/
def Phase.Ready (s : Store) (w : Work) (specs : List Projection) (error : Option String) :
    Phase → Prop
  | .applying => specs = [] ∧ error = none
  | .building target => (target = .graph → w.Covers specs .vector) ∧
      (error = none → ∀ q ∈ specs, s.Present q)
  | .probing p | .staging p => w.Staging s specs error p
  | .settling p _ => w.Staging s specs error p ∧ (error = none → s.Present p)
  | .finalizing => (∀ target, w.Covers specs target) ∧ ∀ q ∈ specs, s.Present q
  | .checking p rest | .activating p rest => w.Activating s specs error (p :: rest)
  | .retiring p rest => w.Activating s specs error (p :: rest) ∧
      (error = none → ⟨p, .active⟩ ∈ s.projections.rows)
  | .recording p rest => w.Activating s specs error (p :: rest) ∧ (error = none → s.Foremost p)
  | .failing _ => True
  | .closing => w.Activating s specs none []

/-- **What has been done when a call gets to a state.** -/
def CallState.Ready (s : Store) : CallState → Prop
  | .waiting stored | .resuming stored => s.mutations.find stored.mutationId = some stored
  | .working w specs error phase => (∀ p ∈ specs, w.Built p) ∧ phase.Ready s w specs error
  | _ => True

theorem CallState.Ready.owning {s : Store} {st : CallState} (h : st.Ready s) : st.Owning s := by
  cases st with
  | working w specs error phase =>
    obtain ⟨hbuilt, hphase⟩ := h
    cases phase with
    | staging p => exact hbuilt p hphase.mem
    | activating p rest => exact ⟨hbuilt p (hphase.subset (by simp)), hphase.mine⟩
    | retiring p rest => exact ⟨hbuilt p (hphase.1.subset (by simp)), hphase.1.mine⟩
    | _ => trivial
  | _ => trivial

theorem CallState.Ready.closing {s : Store} {w : Work} {specs : List Projection} {error : Option String}
    (h : CallState.Ready s (.working w specs error .closing)) :
    w.Mine s ∧ ∀ target ∈ w.command.targets,
      ∃ p, w.Built p ∧ p.slot.target = target ∧ s.Foremost p := by
  obtain ⟨hbuilt, hphase⟩ := h
  refine ⟨hphase.mine, fun target htarget => ?_⟩
  obtain ⟨p, hp, hslot⟩ := hphase.covers target htarget
  rcases hphase.passed rfl p hp with ⟨hno, -⟩ | hforemost
  · cases hno
  · exact ⟨p, hbuilt p hp, hslot, hforemost⟩

/-! ### Operations and what they keep -/

variable {row₀ : Mutation}

section Operations

variable {s : Store} {w : Work} {specs : List Projection} {error : Option String}
  {p q : Projection}

theorem Store.Present.stage (h : s.Present q) (hslot : q.slot ≠ p.slot) : (s.stage p).Present q := by
  rcases h with hstaged | hactive
  · exact .inl (Store.mem_stage.mpr (.inr ⟨hstaged, hslot⟩))
  · exact .inr (Store.mem_stage.mpr (.inr ⟨hactive, hslot⟩))

theorem Store.active_activate (h : ⟨q, .active⟩ ∈ s.projections.rows) :
    ⟨q, .active⟩ ∈ (s.activate p).projections.rows := by
  refine Store.mem_activate.mpr ⟨_, h, ?_⟩
  rcases ProjectionRow.activate_cases p.slot.projectionId ⟨q, .active⟩ with ⟨-, hrow⟩ | ⟨-, hrow⟩ <;>
    exact hrow

theorem Store.Present.activate (h : s.Present q) : (s.activate p).Present q := by
  rcases h with hstaged | hactive
  · rcases ProjectionRow.activate_cases p.slot.projectionId ⟨q, .staged⟩ with
      ⟨-, hrow⟩ | ⟨-, hrow⟩
    · exact .inr (Store.mem_activate.mpr ⟨_, hstaged, hrow⟩)
    · exact .inl (Store.mem_activate.mpr ⟨_, hstaged, hrow⟩)
  · exact .inr (Store.active_activate hactive)

theorem Store.Present.activate_self (h : s.Present p) : ⟨p, .active⟩ ∈ (s.activate p).projections.rows := by
  rcases h with hstaged | hactive
  · refine Store.mem_activate.mpr ⟨_, hstaged, ?_⟩
    rcases ProjectionRow.activate_cases p.slot.projectionId ⟨p, .staged⟩ with ⟨-, hrow⟩ | ⟨hne, -⟩
    · exact hrow
    · exact absurd rfl hne
  · exact Store.active_activate hactive

theorem Store.mem_retire_of_le {row : ProjectionRow} (h : row ∈ s.projections.rows)
    (hle : p.controlVersion ≤ row.projection.controlVersion) :
    row ∈ (s.retirePrevious p).projections.rows := by
  refine Store.mem_retire.mpr ⟨_, h, ?_⟩
  rcases ProjectionRow.retire_cases p row with ⟨-, -, -, hlt, -⟩ | ⟨-, hkept⟩
  · exact absurd hle (not_le.mpr hlt)
  · exact hkept

theorem Store.Present.retire (h : s.Present q) (hle : p.controlVersion ≤ q.controlVersion) :
    (s.retirePrevious p).Present q := by
  rcases h with hstaged | hactive
  · exact .inl (Store.mem_retire_of_le hstaged hle)
  · exact .inr (Store.mem_retire_of_le hactive hle)

theorem Store.foremost_retire (h : ⟨p, .active⟩ ∈ s.projections.rows) : (s.retirePrevious p).Foremost p := by
  refine ⟨Store.mem_retire_of_le h (le_refl _), fun row hrow htarget hkey hactive => ?_⟩
  obtain ⟨old, hold, rfl⟩ := Store.mem_retire.mp hrow
  rcases old.retire_cases p with ⟨-, -, -, -, hretired⟩ | ⟨hno, hkept⟩
  · rw [hretired] at hactive
    cases hactive
  · rw [hkept] at htarget hkey hactive ⊢
    by_contra hlt
    exact hno ⟨htarget, hkey, hactive, not_le.mp hlt⟩

theorem Store.Foremost.retire (h : s.Foremost q) (hle : p.controlVersion ≤ q.controlVersion) :
    (s.retirePrevious p).Foremost q := by
  refine ⟨Store.mem_retire_of_le h.active hle, fun row hrow htarget hkey hactive => ?_⟩
  obtain ⟨old, hold, rfl⟩ := Store.mem_retire.mp hrow
  rcases old.retire_cases p with ⟨-, -, -, -, hretired⟩ | ⟨-, hkept⟩
  · rw [hretired] at hactive
    cases hactive
  · rw [hkept] at htarget hkey hactive ⊢
    exact h.newest old hold htarget hkey hactive

theorem Store.Foremost.activate (h : s.Foremost q) (hq : w.Built q) (hown : s.Owned)
    (hrow₀ : s.mutations.find w.mutationId = some row₀) (hdesc : w.Describes row₀)
    (hclear : ∀ row ∈ s.projections.rows, row.slot.projectionId = p.slot.projectionId →
      row.projection.mutationId = w.mutationId) :
    (s.activate p).Foremost q := by
  refine ⟨Store.active_activate h.active, fun row hrow htarget hkey hactive => ?_⟩
  obtain ⟨old, hold, rfl⟩ := Store.mem_activate.mp hrow
  rcases old.activate_cases p.slot.projectionId with ⟨hid, -⟩ | ⟨-, hkept⟩
  · have hversion := ((hown old hold).of_work hrow₀ hdesc (hclear old hold hid)).2
    rw [ProjectionRow.activate_projection, hversion, hq.spec.2.2]
  · rw [hkept] at htarget hkey hactive ⊢
    exact h.newest old hold htarget hkey hactive

end Operations

/-! ### Steps of a working call -/

variable {target : MemoryTarget}

section Steps

open CallState

variable {s s' : Store} {w : Work} {specs rest : List Projection} {error : Option String}
  {p : Projection}

theorem Work.Covers.append (h : w.Covers specs target) : w.Covers (specs ++ [p]) target := by
  intro htarget
  obtain ⟨q, hq, hslot⟩ := h htarget
  exact ⟨q, List.mem_append_left _ hq, hslot⟩

theorem ready_staged (hbuilt : ∀ q ∈ specs, w.Built q) (hcovers : ∀ target, w.Covers specs target)
    (hpresent : error = none → ∀ q ∈ specs, s.Present q) : (staged w specs error).Ready s := by
  cases error with
  | some code => exact ⟨hbuilt, trivial⟩
  | none => exact ⟨hbuilt, hcovers, hpresent rfl⟩

theorem ready_nextTarget (hbuilt : ∀ q ∈ specs, w.Built q) (hvector : w.Covers specs .vector)
    (hgraph : target = .graph → w.Covers specs .graph) (hpresent : error = none → ∀ q ∈ specs, s.Present q) :
    (nextTarget w specs error target).Ready s := by
  cases target with
  | graph =>
    refine ready_staged hbuilt (fun target => ?_) hpresent
    cases target with
    | vector => exact hvector
    | graph => exact hgraph rfl
  | vector =>
    simp only [nextTarget]
    split
    · exact ⟨hbuilt, fun _ => hvector, hpresent⟩
    · rename_i hno
      refine ready_staged hbuilt (fun target => ?_) hpresent
      cases target with
      | vector => exact hvector
      | graph => exact fun hyes => absurd hyes hno

theorem ready_firstTarget : (firstTarget w).Ready s := by
  have hnil : ∀ q ∈ ([] : List Projection), w.Built q := fun q hq => (by cases hq)
  unfold firstTarget
  split
  · refine ⟨hnil, fun heq => (by cases heq), fun _ q hq => (by cases hq)⟩
  · rename_i hno
    exact ready_nextTarget hnil (fun hyes => absurd hyes hno) (fun heq => (by cases heq))
      fun _ q hq => (by cases hq)

theorem ready_nextActivation (hbuilt : ∀ q ∈ specs, w.Built q)
    (h : w.Activating s specs error rest) : (nextActivation w specs error rest).Ready s := by
  cases rest with
  | cons p rest =>
    refine ⟨hbuilt, ?_⟩
    cases w.resumed with
    | true => exact h
    | false => exact h
  | nil =>
    cases error with
    | some code => exact ⟨hbuilt, trivial⟩
    | none => exact ⟨hbuilt, h⟩

theorem Work.Activating.next (h : w.Activating s specs error (p :: rest))
    (hp : error = none → s.Foremost p) : w.Activating s specs error rest := by
  refine ⟨h.mine, h.covers, fun q hq => h.subset (List.mem_cons_of_mem _ hq), fun hnone q hq => ?_⟩
  rcases h.passed hnone q hq with ⟨hmem, hpresent⟩ | hforemost
  · rcases List.mem_cons.mp hmem with rfl | hrest
    · exact .inr (hp hnone)
    · exact .inl ⟨hrest, hpresent⟩
  · exact .inr hforemost

theorem Work.Activating.mono (h : w.Activating s specs error rest) (hmine : w.Mine s')
    (hpresent : ∀ q ∈ specs, s.Present q → s'.Present q)
    (hforemost : ∀ q ∈ specs, s.Foremost q → s'.Foremost q) : w.Activating s' specs error rest := by
  refine ⟨hmine, h.covers, h.subset, fun hnone q hq => ?_⟩
  rcases h.passed hnone q hq with ⟨hmem, hp⟩ | hf
  · exact .inl ⟨hmem, hpresent q hq hp⟩
  · exact .inr (hforemost q hq hf)

theorem Work.Activating.of_error (h : w.Activating s specs error rest) (hmine : w.Mine s')
    (code : String) : w.Activating s' specs (error <|> some code) rest := by
  refine ⟨hmine, h.covers, h.subset, fun hnone => ?_⟩
  cases error with
  | none => cases hnone
  | some e => cases hnone

theorem ready_finish (factKey : String) (ending : Except MemoryError MutationResult) :
    (finish factKey ending).Ready s := by
  cases ending <;> exact trivial

theorem ready_committed {factKey : String} {next : Mutation → CallState} {mutationId : ℕ}
    {f : Mutation → Mutation} {st' : CallState}
    (hnext : ∀ row mutations, (next row).Ready { s with mutations := mutations })
    (h : committed factKey next s (s.setMutation mutationId f) = (s', st')) : st'.Ready s' := by
  obtain ⟨row, -, rfl, rfl⟩ | ⟨-, rfl, -⟩ := committed_setMutation h
  · exact hnext _ _
  · exact trivial

variable {now : ℤ} {st' : CallState}

theorem building_ready (hr : CallState.Ready s (.working w specs error (.building target)))
    (h : (Phase.building target).step s w specs error now = (s', st')) : st'.Ready s' := by
  obtain ⟨hbuilt, hphase⟩ := hr
  simp only [Phase.step] at h
  cases hbuild : build target w.command w.mutationId w.factKey w.afterVersion with
  | none =>
    rw [hbuild] at h
    cases h
    exact trivial
  | some p =>
    rw [hbuild] at h
    cases h
    have htarget := (build_spec hbuild).2.2.2
    have hp : w.Built p := by
      show build p.slot.target w.command w.mutationId w.factKey w.afterVersion = some p
      rw [htarget]
      exact hbuild
    have hstaging : w.Staging s (specs ++ [p]) error p := by
      refine ⟨by simp, fun hgraph => ?_, fun hnone q hq hne => ?_⟩
      · rw [htarget] at hgraph
        exact (hphase.1 hgraph).append
      · rcases List.mem_append.mp hq with hold | hnew
        · exact hphase.2 hnone q hold
        · exact absurd (List.mem_singleton.mp hnew) hne
    have hall : ∀ q ∈ specs ++ [p], w.Built q := by
      intro q hq
      rcases List.mem_append.mp hq with hold | hnew
      · exact hbuilt q hold
      · rw [List.mem_singleton.mp hnew]
        exact hp
    refine ⟨hall, ?_⟩
    cases w.resumed with
    | true => exact hstaging
    | false => exact hstaging

theorem settling_ready {status : ProjectionStatus}
    (hr : CallState.Ready s (.working w specs error (.settling p status)))
    (h : (Phase.settling p status).step s w specs error now = (s', st')) : st'.Ready s' := by
  obtain ⟨hbuilt, hstaging, hpresent⟩ := hr
  refine ready_committed (fun row mutations => ready_nextTarget hbuilt ?_ ?_ ?_) h
  · cases htarget : p.slot.target with
    | vector => exact fun _ => ⟨p, hstaging.mem, htarget⟩
    | graph => exact hstaging.covers htarget
  · intro htarget _
    exact ⟨p, hstaging.mem, htarget⟩
  · intro hnone q hq
    by_cases hqp : q = p
    · rw [hqp]
      exact hpresent hnone
    · exact hstaging.present hnone q hq hqp

theorem finalizing_ready (hafter : w.afterVersion = nextVersion w.beforeVersion)
    (hr : CallState.Ready s (.working w specs error .finalizing))
    (h : Phase.finalizing.step s w specs error now = (s', st')) : st'.Ready s' := by
  obtain ⟨hbuilt, hcovers, hpresent⟩ := hr
  have hgo : ∀ {s₁ : Store}, s₁.projections = s.projections → w.Mine s₁ →
      (CallState.nextActivation w specs error specs).Ready s₁ := by
    intro s₁ hprojections hmine
    refine ready_nextActivation hbuilt ⟨hmine, hcovers, fun q hq => hq, fun _ q hq => ?_⟩
    refine .inl ⟨hq, ?_⟩
    unfold Store.Present
    rw [hprojections]
    exact hpresent q hq
  simp only [Phase.step] at h
  obtain ⟨row, fact, hrow, hfact, hfin, heq⟩ | ⟨row, hrow, hnot, hversion, heq⟩ | ⟨-, e, heq⟩ :=
    CallState.finalizeCanonical_cases s w now
  · rw [heq] at h
    cases h
    exact hgo rfl ⟨fact, hfact, hfin⟩
  · rw [heq] at h
    cases h
    refine hgo rfl ⟨w.fact (s.facts.find w.factKey) now,
      (Table.find_upsert _ _ _).trans (if_pos rfl), rfl, ?_⟩
    show w.version _ = w.afterVersion
    rw [Work.version_eq hafter hversion, hafter]
  · rw [heq] at h
    cases h
    exact trivial

end Steps

/-- A step that goes through leaves a call ready for the next one, where no other call is in its way. -/
theorem Phase.step_ready {s s' : Store} {w : Work} {specs : List Projection} {error : Option String} {now : ℤ}
    {phase : Phase} {st' : CallState} (hown : s.Owned) (hrow₀ : s.mutations.find w.mutationId = some row₀)
    (hdesc : w.Describes row₀) (hafter : w.afterVersion = nextVersion w.beforeVersion)
    (hr : CallState.Ready s (.working w specs error phase)) (hclear : phase.clear s w = true)
    (h : phase.step s w specs error now = (s', st')) : st'.Ready s' := by
  obtain ⟨hbuilt, hphase⟩ := hr
  -- a row of the call's mutation in a target is the call's projection
  have hprobe : ∀ {p : Projection} {status : ProjectionStatus}, p ∈ specs →
      s.probe p.slot.target w.mutationId w.afterVersion = some status →
      ⟨p, status⟩ ∈ s.projections.rows := by
    intro p status hp hfound
    obtain ⟨row, hrow, htarget, hid, -, hstatus⟩ := Store.probe_eq_some hfound
    have heq := (hbuilt p hp).eq_of_owned hrow₀ hdesc (hown row hrow) hid htarget
    rw [← heq, ← hstatus]
    exact hrow
  cases phase with
  | applying => exact ready_committed (fun _ _ => ready_firstTarget) h
  | building target => exact building_ready ⟨hbuilt, hphase⟩ h
  | probing p =>
    simp only [Phase.step] at h
    split at h <;> cases h
    · exact ⟨hbuilt, hphase, fun _ => .inl (hprobe hphase.mem (by assumption))⟩
    · exact ⟨hbuilt, hphase, fun _ => .inr (hprobe hphase.mem (by assumption))⟩
    · exact ⟨hbuilt, hphase⟩
  | staging p =>
    cases h
    have hstaged : (s.stage p).Present p := .inl (Store.mem_stage.mpr (.inl rfl))
    refine ⟨hbuilt, ⟨hphase.mem, hphase.covers, fun hnone q hq hne => ?_⟩, fun _ => hstaged⟩
    refine (hphase.present hnone q hq hne).stage fun hslot => hne ?_
    exact (hbuilt q hq).eq (hbuilt p hphase.mem) (congrArg Slot.target hslot)
  | settling p status => exact settling_ready ⟨hbuilt, hphase⟩ h
  | finalizing => exact finalizing_ready hafter ⟨hbuilt, hphase⟩ h
  | checking p rest =>
    simp only [Phase.step] at h
    split at h <;> cases h
    · rename_i hfound
      have hp := hphase.subset (List.mem_cons_self ..)
      obtain ⟨-, hkey, hversion⟩ := (hbuilt p hp).spec
      refine ready_nextActivation hbuilt (hphase.next fun _ => ⟨hprobe hp hfound, ?_⟩)
      intro row hrow htarget hrowkey hactive
      rw [hversion]
      exact of_decide_eq_true hclear hfound row hrow htarget (hrowkey.trans hkey) hactive
    · exact ⟨hbuilt, hphase⟩
  | activating p rest =>
    cases h
    have hp := hphase.subset (List.mem_cons_self ..)
    refine ⟨hbuilt, hphase.mono hphase.mine (fun q _ hq => hq.activate) fun q hmem hq =>
      hq.activate (hbuilt q hmem) hown hrow₀ hdesc (of_decide_eq_true hclear), fun hnone => ?_⟩
    rcases hphase.passed hnone p hp with ⟨-, hpresent⟩ | hforemost
    · exact hpresent.activate_self
    · exact Store.active_activate hforemost.active
  | retiring p rest =>
    cases h
    obtain ⟨hact, hactive⟩ := hphase
    have hle : ∀ q ∈ specs, p.controlVersion ≤ q.controlVersion := by
      intro q hq
      rw [(hbuilt q hq).spec.2.2, (hbuilt p (hact.subset (List.mem_cons_self ..))).spec.2.2]
    exact ⟨hbuilt, hact.mono hact.mine (fun q hmem hq => hq.retire (hle q hmem)) fun q hmem hq =>
      hq.retire (hle q hmem), fun hnone => Store.foremost_retire (hactive hnone)⟩
  | recording p rest =>
    obtain ⟨hact, hforemost⟩ := hphase
    refine ready_committed (fun row mutations => ready_nextActivation hbuilt ?_) h
    exact (hact.next hforemost).mono hact.mine (fun q _ hq => hq)
      fun q _ hq => ⟨hq.active, hq.newest⟩
  | failing errorCode => exact ready_committed (fun _ _ => ready_finish _ _) h
  | closing =>
    simp only [Phase.step] at h
    cases hr : s.markApplied w.mutationId with
    | ok r =>
      rw [hr] at h
      cases h
      exact ready_finish _ _
    | error e =>
      rw [hr] at h
      cases h
      exact trivial

/-- The step takes effect. -/
def Answer.effective : Answer → Bool
  | .goes _ => true
  | .fails effect _ | .raises effect => effect

theorem CallState.fail_ready {s s' : Store} {effect : Bool} {errorCode : String} {st st' : CallState}
    (hr : st.Ready s) (h : st.fail s effect errorCode = some (s', st')) : st'.Ready s' := by
  have herror : ∀ {error : Option String}, error.orElse (fun _ => some errorCode) ≠ none := by
    intro error
    cases error <;> simp
  cases st with
  | working w specs error phase =>
    obtain ⟨hbuilt, hphase⟩ := hr
    cases phase with
    | staging p =>
      cases h
      exact ⟨hbuilt, ⟨hphase.mem, hphase.covers, fun hnone => absurd hnone herror⟩,
        fun hnone => absurd hnone herror⟩
    | activating p rest =>
      cases h
      have hnext : w.Activating s specs (error <|> some errorCode) rest :=
        (hphase.of_error hphase.mine errorCode).next fun hnone => absurd hnone herror
      refine ready_nextActivation hbuilt ?_
      cases effect with
      | false => exact hnext
      | true => exact ⟨hnext.mine, hnext.covers, hnext.subset, fun hnone => absurd hnone herror⟩
    | retiring p rest =>
      cases h
      have hnext : w.Activating s specs (error <|> some errorCode) rest :=
        (hphase.1.of_error hphase.1.mine errorCode).next fun hnone => absurd hnone herror
      refine ready_nextActivation hbuilt ?_
      cases effect with
      | false => exact hnext
      | true => exact ⟨hnext.mine, hnext.covers, hnext.subset, fun hnone => absurd hnone herror⟩
    | _ => cases h
  | _ => cases h

/-- Whatever phase a call gets to, what this phase needs has been done. -/
theorem CallState.advance_ready {v : MutationService} {s s' : Store} {h : History} {a : Answer}
    {st st' : CallState} (hrows : ∀ i row, s.mutations.find i = some row → row.Sound v h)
    (hk : st.Knows v s h) (hown : s.Owned) (hr : st.Ready s) (hclear : a.effective = true → st.clear s = true)
    (hadv : st.advance v s a = some (s', st')) : st'.Ready s' := by
  cases a with
  | fails effect errorCode => exact fail_ready hr hadv
  | raises effect =>
    cases st with
    | done => cases hadv
    | releasing =>
      cases hadv
      exact trivial
    | _ =>
      cases hadv
      exact trivial
  | goes now =>
    cases st with
    | working w specs error phase =>
      simp only [advance, step, Option.some.injEq] at hadv
      obtain ⟨row₀, hrow₀, hdesc⟩ := hk
      exact Phase.step_ready hown hrow₀ hdesc (Work.after_eq hdesc (hrows _ _ hrow₀)) hr
        (hclear rfl) hadv
    | beginning c factKey =>
      simp only [advance, step, Option.some.injEq] at hadv
      split at hadv <;> (cases hadv; exact trivial)
    | loading mutationId c factKey =>
      simp only [advance, step, Option.some.injEq] at hadv
      split at hadv <;> (cases hadv; exact trivial)
    | deciding mutationId c factKey d current =>
      simp only [advance, step, Option.some.injEq, Store.recordDecision] at hadv
      obtain ⟨row, -, rfl, -⟩ | ⟨-, rfl, -⟩ := committed_setMutation hadv
      · exact trivial
      · exact trivial
    | evidencing mutationId c factKey d current =>
      simp only [advance, step, Option.some.injEq] at hadv
      split at hadv
      · cases hadv
        exact ⟨fun q hq => (by cases hq), rfl, rfl⟩
      · cases hadv
        exact trivial
      · cases hadv
        split <;> exact trivial
    | concluding mutationId factKey =>
      cases hadv
      exact ready_finish _ _
    | reading mutationId =>
      simp only [advance, step, Option.some.injEq, Store.getMutation] at hadv
      cases hfind : s.mutations.find mutationId with
      | none =>
        rw [hfind] at hadv
        cases hadv
        exact trivial
      | some stored =>
        rw [hfind] at hadv
        simp only at hadv
        split at hadv <;> cases hadv
        · exact trivial
        · have hid : stored.mutationId = mutationId := Table.find_key hfind
          show s.mutations.find stored.mutationId = some stored
          rw [hid]
          exact hfind
    | resuming stored =>
      cases hadv
      unfold MutationService.resume
      split
      · exact trivial
      · split
        · exact ⟨fun q hq => (by cases hq), rfl, rfl⟩
        · exact trivial
    | replaying | requesting | reviewing | reporting =>
      cases hadv
      exact trivial
    | acquiring | waiting | releasing | done => cases hadv

/-! ### The invariant of a sequence of calls -/

def CallState.over : CallState → Bool
  | .done _ => true
  | _ => false

theorem CallState.driving_of_over {st : CallState} (h : st.over = true) : st.driving = none := by
  cases st with
  | done ending => rfl
  | _ => cases h

theorem CallState.ready_of_over {s : Store} {st : CallState} (h : st.over = true) : st.Ready s := by
  cases st with
  | done ending => exact trivial
  | _ => cases h

def Action.effective : Action → Bool
  | .advance _ answer => answer.effective
  | .crash _ effect => effect
  | .start .. | .expire _ => false

variable {h' : History} {acts : List Action}

namespace System

/-- A call starts when every other one has ended. -/
def Alone (sys : System) (a : Action) : Prop :=
  ∀ call, a.call = some call → sys.calls call = none →
    ∀ other st, sys.calls other = some st → st.over = true

/-- An operation that takes effect meets no projection in its way. -/
def clear (sys : System) (a : Action) : Bool :=
  match a.call.bind sys.calls with
  | some st => !a.effective || st.clear sys.store
  | none => true

/-- **The invariant of a sequence of calls.** -/
structure Orderly (v : MutationService) (sys : System) : Prop where
  sound : Sound v sys
  settled : Settled sys
  solo : ∀ a b sa sb, sys.calls a = some sa → sys.calls b = some sb → sa.over = false →
    sb.over = false → a = b
  ready : ∀ call st, sys.calls call = some st → st.Ready sys.store
  owned : sys.store.Owned
  bounded : sys.store.Bounded
  originated : sys.store.Originated
  agrees : sys.store.Agrees

theorem orderly_initial (v : MutationService) : Orderly v initial where
  sound := sound_initial v
  settled := ⟨fun i row hrow => (by cases hrow), fun a b sa sb i ha => (by cases ha)⟩
  solo := fun a b sa sb ha => by cases ha
  ready := fun call st hst => by cases hst
  owned := fun row hrow => by cases hrow
  bounded := fun row hrow => by cases hrow
  originated := fun factKey fact hfact => by cases hfact
  agrees := fun factKey fact row hstand => by cases hstand.written

variable {s' : Store}

namespace Orderly

variable {v : MutationService} {sys sys' : System} {a : Action} {call : ℕ} {st st' : CallState}

theorem others (ho : Orderly v sys) (hst : sys.calls call = some st) (hon : st.over = false) {other : ℕ}
    {so : CallState} (hne : other ≠ call) (hso : sys.calls other = some so) : so.over = true := by
  by_contra hno
  exact hne (ho.solo other call so st hso hst (by simpa using hno) hon)

theorem exclusive (ho : Orderly v sys) : Exclusive sys a := by
  intro call now stored _ hwaiting _
  have hfound : sys.store.mutations.find stored.mutationId = some stored := ho.ready _ _ hwaiting
  obtain ⟨hunfinished, -⟩ := ho.sound.knows _ _ hwaiting
  refine ⟨fun row hrow => ?_, fun other so hso hdriving => ?_⟩
  · obtain rfl := Option.some.inj (hfound.symm.trans hrow)
    exact hunfinished
  · by_cases hne : other = call
    · rw [hne, hwaiting] at hso
      cases hso
      cases hdriving
    · rw [CallState.driving_of_over (ho.others hwaiting rfl hne hso)] at hdriving
      cases hdriving

theorem calls_moved (hothers : ∀ other so, other ≠ call → sys.calls other = some so → so.over = true)
    (hready : st'.Ready s') :
    (∀ a b sa sb, update sys.calls call (some st') a = some sa →
      update sys.calls call (some st') b = some sb → sa.over = false → sb.over = false →
      a = b) ∧
    ∀ c sc, update sys.calls call (some st') c = some sc → sc.Ready s' := by
  have hon : ∀ c sc, update sys.calls call (some st') c = some sc → sc.over = false →
      c = call := by
    intro c sc hsc hno
    rcases calls_update hsc with ⟨hc, -⟩ | ⟨hne, hsc⟩
    · exact hc
    · rw [hothers c sc hne hsc] at hno
      cases hno
  refine ⟨fun a b sa sb ha hb hsa hsb => (hon a sa ha hsa).trans (hon b sb hb hsb).symm,
    fun c sc hsc => ?_⟩
  rcases calls_update hsc with ⟨-, rfl⟩ | ⟨hne, hsc⟩
  · exact hready
  · exact CallState.ready_of_over (hothers c sc hne hsc)

theorem store_step (ho : Orderly v sys) (hst : sys.calls call = some st) (hclear : st.clear sys.store = true)
    (he : st.Effect sys.store s') (hmove : st.FactMove sys.store sys.history s' h') :
    s'.Owned ∧ s'.Bounded ∧ s'.Originated ∧ s'.Agrees := by
  have hk := ho.sound.knows _ _ hst
  have hready := ho.ready _ _ hst
  have hundriven : ∀ i row, sys.store.mutations.find i = some row → row.status.finished = true →
      st.driving ≠ some i := fun i row hrow hfin => ho.settled.undriven i row hrow hfin _ _ hst
  refine ⟨ho.owned.step hk hready.owning he,
    ho.bounded.step ho.owned hk hready.owning hclear he hmove,
    ho.originated.step hk he hmove,
    ho.agrees.step ho.owned ho.bounded ho.originated hk hundriven hready.owning hclear ?_ he hmove⟩
  intro w specs error hclosing
  subst hclosing
  exact hready.closing

theorem store_step_if (ho : Orderly v sys) (hst : sys.calls call = some st) {effect : Bool}
    (hclear : effect = true → st.clear sys.store = true) (hnot : effect = false → s' = sys.store)
    (he : st.Effect sys.store s') (hmove : st.FactMove sys.store sys.history s' h') :
    s'.Owned ∧ s'.Bounded ∧ s'.Originated ∧ s'.Agrees := by
  cases effect with
  | true => exact ho.store_step hst (hclear rfl) he hmove
  | false =>
    rw [hnot rfl]
    exact ⟨ho.owned, ho.bounded, ho.originated, ho.agrees⟩

end Orderly

theorem Quiet.on {v : MutationService} {st st' : CallState} (h : Quiet v (some st) st') :
    st.over = false := by
  cases h with
  | acquires | resumes => rfl
  | ends ending hlock =>
    cases st with
    | done => cases hlock
    | _ => rfl

theorem Quiet.ready {v : MutationService} {o : Option CallState} {st' : CallState} {s : Store}
    (h : Quiet v o st') (hr : ∀ st ∈ o, st.Ready s) : st'.Ready s := by
  cases h with
  | starts request =>
    cases request with
    | resumeMutation mutationId => exact trivial
    | mutate c =>
      simp only [startState]
      split
      · exact trivial
      · split <;> exact trivial
  | acquires => exact trivial
  | resumes stored => exact hr (.waiting stored) rfl
  | ends => exact trivial

theorem advance_ineffective {v : MutationService} {s : Store} {a : Answer} {st st' : CallState}
    (hadv : st.advance v s a = some (s', st')) (ha : a.effective = false) : s' = s := by
  cases a with
  | goes now => cases ha
  | fails effect errorCode =>
    have heffect : effect = false := ha
    subst heffect
    cases st with
    | working w specs error phase =>
      cases phase with
      | staging | activating | retiring =>
        cases hadv
        rfl
      | _ => cases hadv
    | _ => cases hadv
  | raises effect =>
    have heffect : effect = false := ha
    subst heffect
    cases st with
    | done => cases hadv
    | _ =>
      cases hadv
      rfl

/-- A step keeps the order, if calls start alone and their statements are clear. -/
theorem Orderly.step {v : MutationService} {sys sys' : System} {a : Action} (ho : Orderly v sys)
    (halone : Alone sys a) (hclear : clear sys a = true) (h : System.step v sys a = some sys') :
    Orderly v sys' := by
  have hsound := ho.sound.step h
  have hsettled := ho.settled.step ho.sound ho.exclusive h
  cases step_moves h with
  | @quiet _ call st' locks hquiet hgrant =>
    have hothers : ∀ other so, other ≠ call → sys.calls other = some so → so.over = true := by
      intro other so hne hso
      cases hcall : sys.calls call with
      | none => exact halone call hgrant.1 hcall other so hso
      | some st =>
        rw [hcall] at hquiet
        exact ho.others hcall hquiet.on hne hso
    obtain ⟨hsolo, hready⟩ := Orderly.calls_moved hothers
      (hquiet.ready fun st hst => ho.ready call st hst)
    exact ⟨hsound, hsettled, hsolo, hready, ho.owned, ho.bounded, ho.originated, ho.agrees⟩
  | @advances call answer st st' s' hst hadv =>
    have hon : st.over = false := by
      cases st with
      | done => cases answer <;> cases hadv
      | _ => rfl
    have hgo : answer.effective = true → st.clear sys.store = true := by
      intro heffect
      have hboth : (!answer.effective || st.clear sys.store) = true := by
        have hor := hclear
        simp only [clear, Action.call, Option.bind_some, hst] at hor
        exact hor
      rw [heffect] at hboth
      exact hboth
    have hk := ho.sound.knows _ _ hst
    obtain ⟨hsolo, hready⟩ := Orderly.calls_moved (fun other so hne hso => ho.others hst hon hne hso)
      (CallState.advance_ready ho.sound.rows hk ho.owned (ho.ready _ _ hst) hgo hadv)
    obtain ⟨hown, hb, horig, hagrees⟩ := ho.store_step_if hst hgo (advance_ineffective hadv)
      (CallState.advance_effect hadv) (CallState.advance_factMove ho.sound.rows hk hadv)
    exact ⟨hsound, hsettled, hsolo, hready, hown, hb, horig, hagrees⟩
  | @crashes call effect st hst =>
    have hon : st.over = false := by
      cases st with
      | done =>
        simp only [System.step, hst] at h
        cases h
      | _ => rfl
    have hgo : effect = true → st.clear sys.store = true := by
      intro heffect
      have hboth : (!effect || st.clear sys.store) = true := by
        have hor := hclear
        simp only [clear, Action.call, Option.bind_some, hst] at hor
        exact hor
      rw [heffect] at hboth
      exact hboth
    have hover : CallState.Ready (if effect then st.effect sys.store else sys.store)
        (.done (.error .crashed)) := trivial
    obtain ⟨hsolo, hready⟩ := Orderly.calls_moved
      (fun other so hne hso => ho.others hst hon hne hso) hover
    obtain ⟨hown, hb, horig, hagrees⟩ := ho.store_step_if hst hgo
      (fun heffect => by rw [heffect]; rfl)
      (CallState.effect_if sys.store st effect)
      (CallState.factMove_if sys.store sys.history st effect)
    exact ⟨hsound, hsettled, hsolo, hready, hown, hb, horig, hagrees⟩
  | expires =>
    exact ⟨hsound, hsettled, ho.solo, ho.ready, ho.owned, ho.bounded, ho.originated, ho.agrees⟩

theorem orderly_of_exec {v : MutationService} {sys sys' : System}
    (hok : Meets (System.step v) (fun sys a => Alone sys a ∧ clear sys a = true) sys acts)
    (h : exec (System.step v) sys acts = some sys') (ho : Orderly v sys) : Orderly v sys' :=
  exec_invariant (I := Orderly v) (fun _ _ _ ho hok hstep => ho.step hok.1 hok.2 hstep) hok h ho

/-- **The projections agree with the fact.**  In a sequence of calls whose operations are clear to go,
a fact whose last mutation is `APPLIED` has for every target of the mutation exactly one `ACTIVE`
projection, the mutation's own, and while the fact stays as it is that projection and the row of the
mutation stay as they are. -/
theorem projections_agree {v : MutationService} {acts later : List Action} {sys sys' : System}
    (h : exec (System.step v) initial acts = some sys) (hlater : exec (System.step v) sys later = some sys')
    (hok : Meets (System.step v) (fun sys a => Alone sys a ∧ clear sys a = true) initial
      (acts ++ later))
    {factKey : String} {fact : Fact} {row : Mutation} (hstand : sys.store.Standing factKey fact row)
    (hfact : sys'.store.facts.find factKey = some fact) :
    sys'.store.Standing factKey fact row ∧ ∀ target ∈ row.command.targets,
      ∃ p, build target row.command fact.lastMutationId factKey fact.version = some p ∧
        sys.store.Only factKey p ∧ sys'.store.Only factKey p := by
  obtain ⟨hacts, hrest⟩ := meets_append.mp hok
  have ho := orderly_of_exec hacts h (orderly_initial v)
  have hfinished : row.status.finished = true := by
    rw [hstand.applied]
    rfl
  have hkept : Orderly v sys' ∧ sys'.store.mutations.find fact.lastMutationId = some row :=
    exec_invariant
      (I := fun s => Orderly v s ∧ s.store.mutations.find fact.lastMutationId = some row)
      (fun _ _ _ ho hok hstep => ⟨ho.1.step hok.1 hok.2 hstep,
        ho.1.settled.keeps hstep ho.2 hfinished⟩)
      (hrest sys h) hlater ⟨ho, hstand.found⟩
  have hstand' : sys'.store.Standing factKey fact row :=
    ⟨hfact, hkept.2, hstand.decision, hstand.applied⟩
  refine ⟨hstand', fun target htarget => ?_⟩
  obtain ⟨p, hp, honly⟩ := ho.agrees factKey fact row hstand target htarget
  obtain ⟨q, hq, honly'⟩ := hkept.1.agrees factKey fact row hstand' target htarget
  obtain rfl := Option.some.inj (hp.symm.trans hq)
  exact ⟨p, hp, honly, honly'⟩

/-- `Alone`, in a run whose calls have small numbers. -/
def aloneBelow (n : ℕ) (sys : System) (a : Action) : Bool :=
  decide (∀ call ∈ a.call, call < n) &&
    decide (∀ call ∈ a.call, (sys.calls call).isNone →
      ∀ other < n, ∀ st ∈ sys.calls other, st.over = true)

theorem alone_of_below {v : MutationService} {n : ℕ}
    (h : Meets (System.step v) (fun s a => (aloneBelow n s a && clear s a) = true) initial acts) :
    Meets (System.step v) (fun s a => Alone s a ∧ clear s a = true) initial acts := by
  have hbound : ∀ {sys : System} {a : Action}, (aloneBelow n sys a && clear sys a) = true →
      ∀ call ∈ a.call, call < n := by
    intro sys a hok
    exact of_decide_eq_true (Bool.and_eq_true_iff.mp (Bool.and_eq_true_iff.mp hok).1).1
  refine Meets.mono_of_invariant (I := fun s => ∀ c, n ≤ c → s.calls c = none)
    (fun _ _ _ hI hok hstep => calls_below hI (hbound hok) hstep) (fun sys a hI hok => ?_)
    (fun c _ => rfl) h
  obtain ⟨hbelow, hclear⟩ := Bool.and_eq_true_iff.mp hok
  have hover := of_decide_eq_true (Bool.and_eq_true_iff.mp hbelow).2
  refine ⟨fun call hcall hnone other st hst => ?_, hclear⟩
  by_cases hlt : other < n
  · exact hover call hcall (by rw [hnone]; rfl) other hlt st hst
  · rw [hI other (not_lt.mp hlt)] at hst
    cases hst

/-- A fact that is created and then corrected. -/
def sequentialRun : List Action :=
  [.start 0 (.mutate (exampleCommand "K-1" "open" none))] ++ goes 0 17 ++
    [.start 1 (.mutate (exampleCommand "K-2" "closed" (some 1)))] ++ goes 1 17

/-- The correction has its projection, also after a resume that finds it finished. -/
theorem projections_agree_sequential : ∃ sys sys' fact row,
    exec (System.step exampleService) initial sequentialRun = some sys ∧
    exec (System.step exampleService) sys (.start 2 (.resumeMutation 1) :: goes 2 1) = some sys' ∧
    fact.version = 2 ∧ sys'.store.Standing "R-1" fact row ∧
    ∀ target ∈ row.command.targets,
      ∃ p, build target row.command fact.lastMutationId "R-1" fact.version = some p ∧
        sys.store.Only "R-1" p ∧ sys'.store.Only "R-1" p := by
  have hrun : ((exec (System.step exampleService) initial sequentialRun).bind fun sys =>
      (sys.store.facts.find "R-1").bind fun fact =>
      (sys.store.mutations.find fact.lastMutationId).bind fun row =>
      (exec (System.step exampleService) sys (.start 2 (.resumeMutation 1) :: goes 2 1)).map
        fun sys' => decide (fact.version = 2 ∧ row.decision = some .replace ∧
          row.status = .applied ∧ sys'.store.facts.find "R-1" = some fact)) = some true := by
    decide +kernel
  obtain ⟨sys, hsys, hrun⟩ := Option.bind_eq_some_iff.mp hrun
  obtain ⟨fact, hfact, hrun⟩ := Option.bind_eq_some_iff.mp hrun
  obtain ⟨row, hrow, hrun⟩ := Option.bind_eq_some_iff.mp hrun
  obtain ⟨sys', hsys', hrun⟩ := Option.map_eq_some_iff.mp hrun
  obtain ⟨hversion, hdecision, happlied, hfact'⟩ := of_decide_eq_true hrun
  have hmeets : Meets (System.step exampleService)
      (fun s a => (aloneBelow 3 s a && clear s a) = true) initial
      (sequentialRun ++ .start 2 (.resumeMutation 1) :: goes 2 1) := by decide +kernel
  exact ⟨sys, sys', fact, row, hsys, hsys', hversion,
    projections_agree hsys hsys' (alone_of_below hmeets)
      ⟨hfact, hrow, ⟨_, hdecision, rfl⟩, happlied⟩ hfact'⟩

/-- A mutation that could not be staged is resumed when another one has created the fact. -/
def staleRun : List Action :=
  partialRun ++ [.start 1 (.mutate (exampleCommand "K-2" "open" none))] ++ goes 1 17 ++
    [.start 2 (.resumeMutation 0)] ++ goes 2 10

/-- The projections there are: for which mutation, of which version, in which state. -/
def projected (sys : System) : List (ℕ × ℕ × ProjectionStatus) :=
  sys.store.projections.rows.map fun row =>
    (row.projection.mutationId, row.projection.controlVersion, row.status)

/-- One call after the other; the fact is the second mutation's, which stays `APPLIED`, and its only
projection is overwritten by the first one's and `STAGED`. -/
theorem projection_overwritten :
    Meets (System.step exampleService) (fun s a => aloneBelow 3 s a = true) initial staleRun ∧
      ((exec (System.step exampleService) initial staleRun).map fun sys =>
        ((sys.store.facts.find "R-1").map fun fact => (fact.lastMutationId, fact.version),
          sys.status 1)) = some (some (1, 1), some .applied) ∧
      (exec (System.step exampleService) initial staleRun).map projected =
        some [(0, 1, .staged)] := by
  refine ⟨?_, ?_, ?_⟩
  · decide +kernel
  · decide +kernel
  · decide +kernel

end System

end CountyFlow.Memory
