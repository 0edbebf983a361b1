import CountyFlow.Memory.Finished

/-!
# What the projection stores hold

A projection lies in a slot that its command and its version determine, and its row says for which
mutation it was staged.  Of the three operations `stage` writes a row, `activate` and
`retire_previous` only move statuses.
-/

namespace CountyFlow.Memory

open CountyFlow.Lib

/-! ### Rows of the projection stores -/

variable {target : MemoryTarget}

namespace Store

variable {s : Store} {p : Projection} {row : ProjectionRow}

theorem mem_stage :
    row ∈ (s.stage p).projections.rows ↔
      row = ⟨p, .staged⟩ ∨ (row ∈ s.projections.rows ∧ row.slot ≠ p.slot) := Table.mem_upsert

theorem mem_activate :
    row ∈ (s.activate p).projections.rows ↔
      ∃ old ∈ s.projections.rows, old.activate p.slot.projectionId = row := List.mem_map

theorem mem_retire :
    row ∈ (s.retirePrevious p).projections.rows ↔
      ∃ old ∈ s.projections.rows, old.retire p = row := List.mem_map

theorem probe_eq_some {mutationId version : ℕ} {status : ProjectionStatus}
    (h : s.probe target mutationId version = some status) :
    ∃ row ∈ s.projections.rows, row.slot.target = target ∧ row.projection.mutationId = mutationId ∧
      row.projection.controlVersion = version ∧ row.status = status := by
  obtain ⟨row, hrow, hstatus⟩ := Option.map_eq_some_iff.mp h
  have hprop : row.slot.target = target ∧ row.projection.mutationId = mutationId ∧
      row.projection.controlVersion = version := by simpa using List.find?_some hrow
  exact ⟨row, List.mem_of_find?_eq_some hrow, hprop.1, hprop.2.1, hprop.2.2, hstatus⟩

end Store

theorem ProjectionRow.activate_cases (id : ProjectionId) (row : ProjectionRow) :
    (row.slot.projectionId = id ∧ row.activate id = ⟨row.projection, .active⟩) ∨
      (row.slot.projectionId ≠ id ∧ row.activate id = row) := by
  unfold ProjectionRow.activate
  split
  · exact .inl ⟨by assumption, rfl⟩
  · exact .inr ⟨by assumption, rfl⟩

theorem ProjectionRow.retire_cases (p : Projection) (row : ProjectionRow) :
    (row.slot.target = p.slot.target ∧ row.projection.factKey = p.factKey ∧ row.status = .active ∧
        row.projection.controlVersion < p.controlVersion ∧
        row.retire p = ⟨row.projection, .retired⟩) ∨
      (¬ (row.slot.target = p.slot.target ∧ row.projection.factKey = p.factKey ∧
        row.status = .active ∧ row.projection.controlVersion < p.controlVersion) ∧
        row.retire p = row) := by
  unfold ProjectionRow.retire
  split
  · rename_i h
    exact .inl ⟨h.1, h.2.1, h.2.2.1, h.2.2.2, rfl⟩
  · exact .inr ⟨by assumption, rfl⟩

/-! ### Invariants of the store -/

/-- The projection is what the command of its mutation makes of the version the mutation decided to
write. -/
def Projection.Owned (s : Store) (p : Projection) : Prop :=
  ∃ row, s.mutations.find p.mutationId = some row ∧ (∃ x, row.decision = some x ∧ x.writes = true) ∧
    row.afterVersion = some p.controlVersion ∧
    build p.slot.target row.command p.mutationId row.factKey p.controlVersion = some p

def Work.Built (w : Work) (p : Projection) : Prop :=
  build p.slot.target w.command w.mutationId w.factKey w.afterVersion = some p

variable {row : Mutation}

section Built

variable {w : Work} {p q : Projection}

theorem Work.Built.spec (h : w.Built p) :
    p.mutationId = w.mutationId ∧ p.factKey = w.factKey ∧ p.controlVersion = w.afterVersion := by
  obtain ⟨hid, hkey, hversion, -⟩ := build_spec h
  exact ⟨hid, hkey, hversion⟩

theorem Work.Built.eq (hp : w.Built p) (hq : w.Built q) (ht : p.slot.target = q.slot.target) : p = q := by
  have hp' : build p.slot.target w.command w.mutationId w.factKey w.afterVersion = some p := hp
  rw [ht] at hp'
  exact Option.some.inj (hp'.symm.trans hq)

theorem Work.Built.owned {s : Store} (h : w.Built p) (hrow : s.mutations.find w.mutationId = some row)
    (hdesc : w.Describes row) : p.Owned s := by
  obtain ⟨hid, hkey, hversion⟩ := h.spec
  refine ⟨row, ?_, hdesc.decision, ?_, ?_⟩
  · rw [hid]
    exact hrow
  · rw [hversion]
    exact hdesc.after
  · rw [hid, hversion, hdesc.command, hdesc.factKey]
    exact h

theorem Work.Built.eq_of_owned {s : Store} (h : w.Built p) (hrow : s.mutations.find w.mutationId = some row)
    (hdesc : w.Describes row) (hq : q.Owned s) (hid : q.mutationId = w.mutationId)
    (ht : q.slot.target = p.slot.target) : q = p := by
  obtain ⟨row', hrow', -, hafter, hbuild⟩ := hq
  rw [hid, hrow] at hrow'
  cases hrow'
  rw [hdesc.after] at hafter
  have hversion := Option.some.inj hafter
  rw [hid, ht, ← hversion, hdesc.command, hdesc.factKey] at hbuild
  exact Option.some.inj (hbuild.symm.trans h)

end Built

theorem Projection.Owned.factKey {s : Store} {p : Projection} (h : p.Owned s) :
    ∃ row, s.mutations.find p.mutationId = some row ∧ p.factKey = row.factKey ∧
      row.afterVersion = some p.controlVersion := by
  obtain ⟨row, hrow, -, hafter, hbuild⟩ := h
  exact ⟨row, hrow, (build_spec hbuild).2.1, hafter⟩

theorem Projection.Owned.of_work {s : Store} {w : Work} {p : Projection} (hp : p.Owned s)
    (hrow : s.mutations.find w.mutationId = some row) (hdesc : w.Describes row)
    (hid : p.mutationId = w.mutationId) : p.factKey = w.factKey ∧ p.controlVersion = w.afterVersion := by
  obtain ⟨row', hrow', hkey, hafter⟩ := hp.factKey
  rw [hid, hrow] at hrow'
  cases hrow'
  rw [hdesc.after] at hafter
  exact ⟨hkey.trans hdesc.factKey, (Option.some.inj hafter).symm⟩

theorem Projection.Owned.mono {v : MutationService} {s s' : Store} {h : History} {st : CallState}
    {p : Projection} (hp : p.Owned s) (he : st.Effect s s') (hk : st.Knows v s h) : p.Owned s' := by
  obtain ⟨row, hrow, ⟨x, hx, hwrites⟩, hafter, hbuild⟩ := hp
  obtain ⟨row', hrow', hcore⟩ := he.row_core hk hrow (.inl (by rw [hx]; simp))
  refine ⟨row', hrow', ⟨x, (Mutation.decision_of_core hcore).trans hx, hwrites⟩,
    (Mutation.after_of_core hcore).trans hafter, ?_⟩
  rw [Mutation.command_of_core hcore, Mutation.factKey_of_core hcore]
  exact hbuild

namespace Store

/-- Every row was staged for the mutation it names. -/
def Owned (s : Store) : Prop := ∀ row ∈ s.projections.rows, row.projection.Owned s

/-- The projection is not ahead of its fact, and at the fact's version it is its last mutation's. -/
def Behind (s : Store) (p : Projection) : Prop :=
  ∃ fact, s.facts.find p.factKey = some fact ∧ p.controlVersion ≤ fact.version ∧
    (p.controlVersion = fact.version → fact.lastMutationId = p.mutationId)

def Bounded (s : Store) : Prop :=
  ∀ row ∈ s.projections.rows, row.status = .active → s.Behind row.projection

/-- A fact is written by a mutation of its own. -/
def Originated (s : Store) : Prop :=
  ∀ factKey fact, s.facts.find factKey = some fact →
    ∃ row, s.mutations.find fact.lastMutationId = some row ∧ row.factKey = factKey

/-- The only `ACTIVE` row of a fact for a target. -/
def Only (s : Store) (factKey : String) (p : Projection) : Prop :=
  ⟨p, .active⟩ ∈ s.projections.rows ∧ ∀ row ∈ s.projections.rows,
    row.slot.target = p.slot.target → row.projection.factKey = factKey → row.status = .active →
    row = ⟨p, .active⟩

/-- An `ACTIVE` projection, and none of the fact's for the target is older. -/
structure Foremost (s : Store) (p : Projection) : Prop where
  active : ⟨p, .active⟩ ∈ s.projections.rows
  newest : ∀ row ∈ s.projections.rows, row.slot.target = p.slot.target →
    row.projection.factKey = p.factKey → row.status = .active →
    p.controlVersion ≤ row.projection.controlVersion

/-- The mutation wrote the fact last and is `APPLIED`. -/
structure Standing (s : Store) (factKey : String) (fact : Fact) (row : Mutation) : Prop where
  written : s.facts.find factKey = some fact
  found : s.mutations.find fact.lastMutationId = some row
  decision : ∃ x, row.decision = some x ∧ x.writes = true
  applied : row.status = .applied

/-- **The projections agree with the facts**: a fact whose last mutation is `APPLIED` has for each of
the mutation's targets one `ACTIVE` projection, which is the mutation's, of the fact's version and with
the content of the mutation's command. -/
def Agrees (s : Store) : Prop :=
  ∀ factKey fact row, s.Standing factKey fact row → ∀ target ∈ row.command.targets,
    ∃ p, build target row.command fact.lastMutationId factKey fact.version = some p ∧
      s.Only factKey p

end Store

/-! ### What a step does to the projections -/

/-- The fact is what a working call made of it. -/
def Work.Mine (w : Work) (s : Store) : Prop :=
  ∃ fact, s.facts.find w.factKey = some fact ∧ w.Finalized fact

/-- The projection belongs to an `APPLIED` mutation that wrote its fact last. -/
def Store.stands (s : Store) (p : Projection) : Bool :=
  (s.facts.find p.factKey).any (fun fact => decide (fact.lastMutationId = p.mutationId)) &&
    (s.mutations.find p.mutationId).any fun row => decide (row.status = .applied)

/-- What an operation should find: no slot with a projection that stands, no other mutation's
projection under its id, and with an `ACTIVE` projection no older one. -/
def Phase.clear (s : Store) (w : Work) : Phase → Bool
  | .staging p => decide (∀ row ∈ s.projections.rows, row.slot = p.slot →
      s.stands row.projection = false)
  | .activating p _ => decide (∀ row ∈ s.projections.rows,
      row.slot.projectionId = p.slot.projectionId → row.projection.mutationId = w.mutationId)
  | .checking p _ => decide (s.probe p.slot.target w.mutationId w.afterVersion = some .active →
      ∀ row ∈ s.projections.rows, row.slot.target = p.slot.target →
        row.projection.factKey = w.factKey → row.status = .active →
        w.afterVersion ≤ row.projection.controlVersion)
  | _ => true

/-- The projections an operation moves are those of the fact the call has written. -/
def Phase.Owning (s : Store) (w : Work) : Phase → Prop
  | .staging p => w.Built p
  | .activating p _ | .retiring p _ => w.Built p ∧ w.Mine s
  | _ => True

namespace CallState

def clear (s : Store) : CallState → Bool
  | .working w _ _ phase => phase.clear s w
  | _ => true

def Owning (s : Store) : CallState → Prop
  | .working w _ _ phase => phase.Owning s w
  | _ => True

theorem Effect.row_kept {s s' : Store} {st : CallState} (he : st.Effect s s') {i : ℕ}
    (hrow : s.mutations.find i = some row) :
    ∃ row', s'.mutations.find i = some row' ∧ row'.factKey = row.factKey := by
  obtain ⟨row', hrow', rfl | ⟨c, factKey, d, current, -, rfl⟩ | ⟨w, specs, error, phase, -, -, hcore⟩⟩ :=
    he.row hrow
  · exact ⟨row', hrow', rfl⟩
  · exact ⟨_, hrow', rfl⟩
  · exact ⟨row', hrow', Mutation.factKey_of_core hcore⟩

end CallState

variable {fact : Fact}

namespace Store

variable {v : MutationService} {s s' : Store} {h h' : History} {st : CallState}

theorem Owned.step (hown : s.Owned) (hk : st.Knows v s h) (hready : st.Owning s)
    (he : st.Effect s s') : s'.Owned := by
  intro row hrow
  rcases he.projections with hsame | ⟨w, specs, error, phase, rfl, rfl⟩
  · rw [hsame] at hrow
    exact (hown row hrow).mono he hk
  · cases phase with
    | staging p =>
      rcases mem_stage.mp hrow with rfl | ⟨hold, -⟩
      · obtain ⟨row₀, hrow₀, hdesc⟩ := hk
        exact Work.Built.owned hready hrow₀ hdesc
      · exact hown row hold
    | activating p rest =>
      obtain ⟨old, hold, rfl⟩ := mem_activate.mp hrow
      rw [ProjectionRow.activate_projection]
      exact hown old hold
    | retiring p rest =>
      obtain ⟨old, hold, rfl⟩ := mem_retire.mp hrow
      rw [ProjectionRow.retire_projection]
      exact hown old hold
    | _ => exact hown row hrow

/-- A fact that is written has a mutation of its own. -/
theorem Originated.step (horig : s.Originated) (hk : st.Knows v s h) (he : st.Effect s s')
    (hmove : st.FactMove s h s' h') : s'.Originated := by
  intro factKey fact hfact
  have hold : s.facts.find factKey = some fact →
      ∃ row, s'.mutations.find fact.lastMutationId = some row ∧ row.factKey = factKey := by
    intro hfact
    obtain ⟨row, hrow, hkey⟩ := horig factKey fact hfact
    obtain ⟨row', hrow', hkey'⟩ := he.row_kept hrow
    exact ⟨row', hrow', hkey'.trans hkey⟩
  cases hmove with
  | same hfacts hfin =>
    rw [hfacts] at hfact
    exact hold hfact
  | reviewed now hst hnone hfacts hfin =>
    rw [hfacts, Table.find_upsert] at hfact
    split at hfact
    · rename_i hkey
      cases hfact
      subst hst
      obtain ⟨row, hrow, -, hrowkey, -⟩ := hk
      obtain ⟨row', hrow', hkey'⟩ := he.row_kept hrow
      exact ⟨row', hrow', hkey'.trans (hrowkey.trans hkey.symm)⟩
    · exact hold hfact
  | finalized now hst hrow hdesc hafter hbefore hfacts hfin =>
    rw [hfacts, Table.find_upsert] at hfact
    split at hfact
    · rename_i hkey
      cases hfact
      obtain ⟨row', hrow', hkey'⟩ := he.row_kept hrow
      exact ⟨row', hrow', hkey'.trans (hdesc.factKey.trans hkey.symm)⟩
    · exact hold hfact

variable {p : Projection}

theorem Behind.mono (hp : s.Behind p) (hmove : st.FactMove s h s' h') : s'.Behind p := by
  obtain ⟨fact, hfact, hle, hlast⟩ := hp
  obtain ⟨fact', hfact', rfl | hlt⟩ := hmove.grows hfact
  · exact ⟨fact', hfact', hle, hlast⟩
  · exact ⟨fact', hfact', by omega, fun heq => by omega⟩

/-- No active row gets ahead of its fact. -/
theorem Bounded.step (hb : s.Bounded) (hown : s.Owned) (hk : st.Knows v s h) (hready : st.Owning s)
    (hclear : st.clear s = true) (he : st.Effect s s') (hmove : st.FactMove s h s' h') : s'.Bounded := by
  intro row hrow hactive
  rcases he.projections with hsame | ⟨w, specs, error, phase, rfl, rfl⟩
  · rw [hsame] at hrow
    exact (hb row hrow hactive).mono hmove
  · cases phase with
    | staging p =>
      rcases mem_stage.mp hrow with rfl | ⟨hold, -⟩
      · cases hactive
      · exact hb row hold hactive
    | activating p rest =>
      obtain ⟨old, hold, rfl⟩ := mem_activate.mp hrow
      rw [ProjectionRow.activate_projection]
      rcases old.activate_cases p.slot.projectionId with ⟨hid, -⟩ | ⟨-, hkept⟩
      · obtain ⟨-, fact, hfact, hlast, hversion⟩ := hready
        obtain ⟨row₀, hrow₀, hdesc⟩ := hk
        have hmine := of_decide_eq_true hclear old hold hid
        obtain ⟨hkey, hcontrol⟩ := (hown old hold).of_work hrow₀ hdesc hmine
        refine ⟨fact, ?_, ?_, fun _ => hlast.trans hmine.symm⟩
        · rw [hkey]
          exact hfact
        · rw [hcontrol, hversion]
      · rw [hkept] at hactive
        exact hb old hold hactive
    | retiring p rest =>
      obtain ⟨old, hold, rfl⟩ := mem_retire.mp hrow
      rw [ProjectionRow.retire_projection]
      rcases old.retire_cases p with ⟨-, -, hwas, -, -⟩ | ⟨-, hkept⟩
      · exact hb old hold hwas
      · rw [hkept] at hactive
        exact hb old hold hactive
    | _ => exact hb row hrow hactive

/-- A standing fact stood before the step, or its mutation is being closed. -/
theorem Standing.back {factKey : String} (hstand : s'.Standing factKey fact row) (hk : st.Knows v s h)
    (hundriven : ∀ i row, s.mutations.find i = some row → row.status.finished = true →
      st.driving ≠ some i)
    (he : st.Effect s s') (hmove : st.FactMove s h s' h') :
    s.Standing factKey fact row ∨ ∃ w specs error, st = .working w specs error .closing ∧
      w.mutationId = fact.lastMutationId ∧ s.facts.find factKey = some fact := by
  obtain ⟨x, hx, hwrites⟩ := hstand.decision
  have hfinished : row.status.finished = true := by
    rw [hstand.applied]
    rfl
  have hdriven : ∀ {i : ℕ} {row₀ : Mutation}, s.mutations.find i = some row₀ →
      st.driving = some i → row₀.status.finished = false := by
    intro i row₀ hrow₀ hi
    by_contra hfin
    exact hundriven i row₀ hrow₀ (by simpa using hfin) hi
  -- the fact is not one this step has written
  have hfact : s.facts.find factKey = some fact := by
    have hfind := hstand.written
    cases hmove with
    | same hfacts hfin =>
      rw [hfacts] at hfind
      exact hfind
    | reviewed now hst hnone hfacts hfin =>
      rw [hfacts, Table.find_upsert] at hfind
      split at hfind
      · cases hfind
        subst hst
        have hk' := hk
        obtain ⟨row₀, hrow₀, -, -, hreview⟩ := hk'
        obtain ⟨row', hrow', hcore⟩ := he.row_core hk hrow₀ (.inl (by rw [hreview]; simp))
        obtain rfl := Option.some.inj (hstand.found.symm.trans hrow')
        rw [Mutation.decision_of_core hcore, hreview] at hx
        cases hx
        cases hwrites
      · exact hfind
    | finalized now hst hrow hdesc hafter hbefore hfacts hfin =>
      rw [hfacts, Table.find_upsert] at hfind
      split at hfind
      · cases hfind
        subst hst
        rcases he.finishes hrow hstand.found (hdriven hrow rfl) hfinished with
          ⟨c, k, d, current, hst, -⟩ | ⟨w', specs', error', fact', hst, -⟩
        · cases hst
        · cases hst
      · exact hfind
  cases hfind : s.mutations.find fact.lastMutationId with
  | none =>
    obtain ⟨-, -, c, k, -, rfl⟩ := he.new_row hstand.found hfind
    cases hx
  | some row₀ =>
    cases hold : row₀.status.finished with
    | true =>
      have hsame := he.status hfind (hundriven _ _ hfind hold)
      obtain rfl := Option.some.inj (hstand.found.symm.trans hsame)
      exact .inl ⟨hfact, hfind, hstand.decision, hstand.applied⟩
    | false =>
      rcases he.finishes hfind hstand.found hold hfinished with
        ⟨c, k, d, current, -, rfl⟩ | ⟨w, specs, error, fact', rfl, hw, -⟩
      · have hd : d.decision = x := Option.some.inj hx
        have hstatus : (row₀.decided d).status = row₀.status := by
          unfold Mutation.decided
          cases hd' : d.decision with
          | create | merge | replace => rfl
          | reject | conflictReview | noop =>
            rw [← hd, hd'] at hwrites
            cases hwrites
        rw [hstatus, hold] at hfinished
        cases hfinished
      · exact .inr ⟨w, specs, error, rfl, hw, hfact⟩

theorem Foremost.only {w : Work} {row₀ : Mutation} (hf : s.Foremost p) (hb : s.Bounded) (hown : s.Owned)
    (hp : w.Built p) (hmine : w.Mine s) (hrow₀ : s.mutations.find w.mutationId = some row₀)
    (hdesc : w.Describes row₀) : s.Only w.factKey p := by
  refine ⟨hf.active, fun row hrow htarget hkey hactive => ?_⟩
  obtain ⟨hid, hpkey, hversion⟩ := hp.spec
  obtain ⟨fact, hfact, hlast, hfactVersion⟩ := hmine
  obtain ⟨fact', hfact', hle, hsame⟩ := hb row hrow hactive
  rw [hkey, hfact] at hfact'
  cases hfact'
  have hge := hf.newest row hrow htarget (hkey.trans hpkey.symm) hactive
  have hmutation : row.projection.mutationId = w.mutationId := by
    rw [← hsame (by omega), hlast]
  have heq := hp.eq_of_owned hrow₀ hdesc (hown row hrow) hmutation htarget
  obtain ⟨q, status⟩ := row
  have hq : q = p := heq
  have hstatus : status = .active := hactive
  rw [hq, hstatus]

theorem Standing.ne_of_mine {w : Work} {specs : List Projection} {error : Option String} {phase : Phase}
    {factKey : String} (hstand : s.Standing factKey fact row)
    (hundriven : ∀ i row, s.mutations.find i = some row → row.status.finished = true →
      (CallState.working w specs error phase).driving ≠ some i)
    (hmine : w.Mine s) : factKey ≠ w.factKey := by
  intro hkey
  obtain ⟨fact', hfact', hlast, -⟩ := hmine
  have hwritten := hstand.written
  rw [hkey, hfact'] at hwritten
  cases hwritten
  have hfinished : row.status.finished = true := by
    rw [hstand.applied]
    rfl
  refine hundriven _ row hstand.found hfinished ?_
  rw [hlast]
  rfl

/-- The only active row of a fact stays that, while the fact stands. -/
theorem Only.step {factKey : String} (honly : s.Only factKey p) (hstand : s.Standing factKey fact row)
    (hbuild : build target row.command fact.lastMutationId factKey fact.version = some p) (hown : s.Owned)
    (hk : st.Knows v s h)
    (hundriven : ∀ i row, s.mutations.find i = some row → row.status.finished = true →
      st.driving ≠ some i)
    (hready : st.Owning s) (hclear : st.clear s = true) (he : st.Effect s s') : s'.Only factKey p := by
  obtain ⟨hactive, hrest⟩ := honly
  rcases he.projections with hsame | ⟨w, specs, error, phase, rfl, rfl⟩
  · unfold Only
    rw [hsame]
    exact ⟨hactive, hrest⟩
  · cases phase with
    | staging q =>
      obtain ⟨hid, hkey, -, -⟩ := build_spec hbuild
      have hstands : s.stands p = true := by
        unfold stands
        rw [hkey, hstand.written, hid, hstand.found]
        simp [hstand.applied]
      have hslot : p.slot ≠ q.slot := by
        intro hslot
        have hno := of_decide_eq_true hclear _ hactive hslot
        rw [hstands] at hno
        cases hno
      refine ⟨mem_stage.mpr (.inr ⟨hactive, hslot⟩), fun new hnew htarget hkey' hnewActive => ?_⟩
      rcases mem_stage.mp hnew with rfl | ⟨hold, -⟩
      · cases hnewActive
      · exact hrest new hold htarget hkey' hnewActive
    | activating q rest =>
      have hne := hstand.ne_of_mine hundriven hready.2
      refine ⟨mem_activate.mpr ⟨_, hactive, ?_⟩, fun new hnew htarget hkey' hnewActive => ?_⟩
      · rcases ProjectionRow.activate_cases q.slot.projectionId ⟨p, .active⟩ with
          ⟨-, hrow⟩ | ⟨-, hrow⟩ <;> exact hrow
      · obtain ⟨old, hold, rfl⟩ := mem_activate.mp hnew
        rcases old.activate_cases q.slot.projectionId with ⟨hqid, hrow⟩ | ⟨-, hkept⟩
        · -- the row is one of the fact the call has written
          obtain ⟨row₀, hrow₀, hdesc⟩ := hk
          have hmine := of_decide_eq_true hclear old hold hqid
          have hold_key := ((hown old hold).of_work hrow₀ hdesc hmine).1
          rw [hrow] at hkey'
          exact absurd (hkey'.symm.trans hold_key) hne
        · rw [hkept] at htarget hkey' hnewActive ⊢
          exact hrest old hold htarget hkey' hnewActive
    | retiring q rest =>
      have hne := hstand.ne_of_mine hundriven hready.2
      have hqkey := hready.1.spec.2.1
      have hpkey := (build_spec hbuild).2.1
      refine ⟨mem_retire.mpr ⟨_, hactive, ?_⟩, fun new hnew htarget hkey' hnewActive => ?_⟩
      · rcases ProjectionRow.retire_cases q ⟨p, .active⟩ with ⟨-, hkey, -⟩ | ⟨-, hrow⟩
        · exact absurd ((hpkey.symm.trans hkey).trans hqkey) hne
        · exact hrow
      · obtain ⟨old, hold, rfl⟩ := mem_retire.mp hnew
        rcases old.retire_cases q with ⟨-, -, -, -, hrow⟩ | ⟨-, hkept⟩
        · rw [hrow] at hnewActive
          cases hnewActive
        · rw [hkept] at htarget hkey' hnewActive ⊢
          exact hrest old hold htarget hkey' hnewActive
    | _ => exact ⟨hactive, hrest⟩

/-- The rows go on agreeing with the facts. -/
theorem Agrees.step (hagrees : s.Agrees) (hown : s.Owned) (hb : s.Bounded) (horig : s.Originated)
    (hk : st.Knows v s h)
    (hundriven : ∀ i row, s.mutations.find i = some row → row.status.finished = true →
      st.driving ≠ some i)
    (hready : st.Owning s) (hclear : st.clear s = true)
    (hclosing : ∀ w specs error, st = .working w specs error .closing → w.Mine s ∧
      ∀ target ∈ w.command.targets, ∃ p, w.Built p ∧ p.slot.target = target ∧ s.Foremost p)
    (he : st.Effect s s') (hmove : st.FactMove s h s' h') : s'.Agrees := by
  intro factKey fact row hstand target htarget
  rcases hstand.back hk hundriven he hmove with hbefore | ⟨w, specs, error, rfl, hw, hfact⟩
  · obtain ⟨p, hbuild, honly⟩ := hagrees factKey fact row hbefore target htarget
    exact ⟨p, hbuild, honly.step hbefore hbuild hown hk hundriven hready hclear he⟩
  · -- the call has just closed its own mutation
    obtain ⟨hmine, hall⟩ := hclosing w specs error rfl
    have hk' := hk
    obtain ⟨row₀, hrow₀, hdesc⟩ := hk'
    obtain ⟨row', hrow', hcore⟩ := he.row_core hk hrow₀ (.inr (by simp [CallState.creating]))
    rw [hw] at hrow'
    obtain rfl := Option.some.inj (hstand.found.symm.trans hrow')
    have hcommand := (Mutation.command_of_core hcore).trans hdesc.command
    have hkey : factKey = w.factKey := by
      obtain ⟨row₁, hrow₁, hkey₁⟩ := horig factKey fact hfact
      rw [← hw, hrow₀] at hrow₁
      cases hrow₁
      exact hkey₁.symm.trans hdesc.factKey
    have hversion : fact.version = w.afterVersion := by
      obtain ⟨fact', hfact', hfin⟩ := hmine
      rw [hkey, hfact'] at hfact
      cases hfact
      exact hfin.2
    rw [hcommand] at htarget ⊢
    obtain ⟨p, hp, hptarget, hforemost⟩ := hall target htarget
    have honly := hforemost.only hb hown hp hmine hrow₀ hdesc
    refine ⟨p, ?_, ?_⟩
    · rw [← hw, hkey, hversion, ← hptarget]
      exact hp
    · have hprojections : s'.projections = s.projections := by
        rcases he.projections with hsame | ⟨w', specs', error', phase', hst, rfl⟩
        · exact hsame
        · cases hst
          rfl
      unfold Only
      rw [hprojections, hkey]
      exact honly

end Store

end CountyFlow.Memory
