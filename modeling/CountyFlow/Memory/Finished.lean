import CountyFlow.Memory.Replay

/-!
# Finished mutations and obsolete ones

`resume_mutation` reads the status before it has the lock and does not look again, and the writes of
a status are unconditional.  And a mutation whose fact has moved on is let neither through nor to an
end.
-/

namespace CountyFlow.Memory

open CountyFlow.Lib Function

variable {s : Store} {h : History} {st : CallState} {i : ℕ}

theorem CallState.Knows.driven {v : MutationService} (hk : st.Knows v s h) (hi : st.driving = some i) :
    ∃ row, s.mutations.find i = some row := by
  cases st with
  | requesting | loading =>
    cases hi
    obtain ⟨row, hrow, -⟩ := hk
    exact ⟨row, hrow⟩
  | deciding =>
    cases hi
    obtain ⟨row, hrow, -⟩ := hk
    exact ⟨row, hrow⟩
  | evidencing mutationId c factKey d current =>
    simp only [driving] at hi
    split at hi <;> cases hi
    obtain ⟨row, hrow, -⟩ := hk
    exact ⟨row, hrow⟩
  | resuming stored =>
    cases hi
    obtain ⟨-, -, row, hrow, -⟩ := hk
    exact ⟨row, hrow⟩
  | working w specs error phase =>
    cases hi
    obtain ⟨row, hrow, -⟩ := hk
    exact ⟨row, hrow⟩
  | _ => cases hi

/-! ### Who writes a status -/

variable {phase : Phase} {row : Mutation}

theorem Phase.unfinished_of_mark {f : Mutation → Mutation} (h : phase.mark = some f)
    (hrow : row.status.finished = false) : (f row).status.finished = false := by
  cases phase with
  | applying | failing =>
    cases h
    rfl
  | settling p status | recording p rest =>
    cases h
    unfold Mutation.setProjection
    split <;> exact hrow
  | _ => cases h

variable {s' : Store} {st' : CallState} {factKey : String}

theorem CallState.driving_of_deciding {v : MutationService} {a : Answer} {mutationId : ℕ}
    {c : MutationCommand} {d : MemoryDecision} {current : Option FactSnapshot}
    (hadv : CallState.advance v s (.deciding mutationId c factKey d current) a = some (s', st'))
    (hi : st'.driving = some i) : d.requiresProjection = true := by
  cases a with
  | goes now =>
    simp only [advance, step, Option.some.injEq, Store.recordDecision] at hadv
    obtain ⟨row, -, rfl, -⟩ | ⟨-, rfl, -⟩ := committed_setMutation hadv
    · simp only [driving] at hi
      split at hi
      · assumption
      · cases hi
    · cases hi
  | fails => cases hadv
  | raises =>
    cases hadv
    cases hi

theorem CallState.driving_of_closing {v : MutationService} {a : Answer} {w : Work} {specs : List Projection}
    {error : Option String}
    (hadv : CallState.advance v s (.working w specs error .closing) a = some (s', st')) :
    st'.driving = none := by
  cases a with
  | goes now =>
    simp only [advance, step, Option.some.injEq, Phase.step] at hadv
    cases hr : s.markApplied w.mutationId with
    | ok r =>
      rw [hr] at hadv
      cases hadv
      show (finish w.factKey r.2.result).driving = none
      cases r.2.result <;> rfl
    | error e =>
      rw [hr] at hadv
      cases hadv
      rfl
  | fails => cases hadv
  | raises =>
    cases hadv
    rfl

theorem CallState.Effect.finishes (he : st.Effect s s') {row' : Mutation}
    (hrow : s.mutations.find i = some row) (hrow' : s'.mutations.find i = some row')
    (hbefore : row.status.finished = false) (hafter : row'.status.finished = true) :
    (∃ c factKey d current, st = .deciding i c factKey d current ∧ row' = row.decided d) ∨
      ∃ w specs error fact, st = .working w specs error .closing ∧ w.mutationId = i ∧
        s.facts.find row.factKey = some fact ∧ row.afterVersion = some fact.version := by
  have hsame : s'.mutations.find i = some row → False := by
    intro hfind
    obtain rfl := Option.some.inj (hrow'.symm.trans hfind)
    rw [hbefore] at hafter
    cases hafter
  have hwrite : ∀ {j : ℕ} {old new : Mutation}, s'.mutations = s.mutations.replace new →
      s.mutations.find j = some old → new.mutationId = old.mutationId →
      (old.status.finished = false → new.status.finished = false) → False := by
    intro j old new hs' hold hid hstatus
    rcases row_of_write hs' hrow hold hid with hkept | ⟨-, rfl, hnew⟩
    · exact hsame hkept
    · obtain rfl := Option.some.inj (hrow'.symm.trans hnew)
      rw [hstatus hbefore] at hafter
      cases hafter
  cases he with
  | nothing => exact (hsame hrow).elim
  | begun hnew hadd =>
    refine (hsame ?_).elim
    show Table.find _ i = some row
    rw [Table.find_add hadd]
    split
    · rename_i hi
      have hnone := Table.find_none_of_add hadd
      rw [← hi, hrow] at hnone
      cases hnone
    · exact hrow
  | @decided mutationId c factKey d current old hold =>
    have hid : (old.decided d).mutationId = old.mutationId := rfl
    rcases row_of_write rfl hrow hold hid with hkept | ⟨rfl, rfl, hnew⟩
    · exact (hsame hkept).elim
    · exact .inl ⟨c, factKey, d, current, rfl, Option.some.inj (hrow'.symm.trans hnew)⟩
  | noted =>
    refine (hsame ?_).elim
    unfold Store.appendEvidence
    split <;> exact hrow
  | reviewed now hnone => exact (hsame hrow).elim
  | marked hmark hold =>
    exact (hwrite rfl hold (Mutation.id_of_core (Phase.core_of_mark hmark _))
      (Phase.unfinished_of_mark hmark)).elim
  | refinalized hold hfact hfin => exact (hwrite rfl hold rfl fun _ => rfl).elim
  | wrote now hold hnot hversion => exact (hwrite rfl hold rfl fun _ => rfl).elim
  | @applied w specs error old fact hold hstatus hfact hversion =>
    have hid : ({ old with status := .applied, errorCode := none, errorSummary := none } :
        Mutation).mutationId = old.mutationId := rfl
    rcases row_of_write rfl hrow hold hid with hkept | ⟨hi, rfl, -⟩
    · exact (hsame hkept).elim
    · exact .inr ⟨w, specs, error, fact, rfl, hi, hfact, hversion⟩
  | @projected w specs error phase =>
    refine (hsame ?_).elim
    cases phase <;> exact hrow

theorem CallState.unfinished_of_driving {v : MutationService} {a : Answer} (hk : st.Knows v s h)
    (hadv : st.advance v s a = some (s', st')) (hi : st'.driving = some i) {row' : Mutation}
    (hrow' : s'.mutations.find i = some row')
    (hbefore : ∀ row, s.mutations.find i = some row → row.status.finished = false) :
    row'.status.finished = false := by
  have he := advance_effect hadv
  cases hfind : s.mutations.find i with
  | none =>
    obtain ⟨-, -, c, factKey, -, rfl⟩ := he.new_row hrow' hfind
    rfl
  | some row =>
    by_contra hfin
    have hafter : row'.status.finished = true := by simpa using hfin
    rcases he.finishes hfind hrow' (hbefore row hfind) hafter with
      ⟨c, factKey, d, current, rfl, rfl⟩ | ⟨w, specs, error, fact, rfl, -⟩
    · -- a decision that lets the call go on leaves the status
      obtain ⟨row₀, -, -, -, -, now, -, heval⟩ := hk
      have hdriving := driving_of_deciding hadv hi
      rcases evaluateMutation_cases heval with ⟨hwrites, -⟩ | ⟨-, hno⟩
      · refine hfin ?_
        show (row.decided d).status.finished = false
        unfold Mutation.decided
        cases hd : d.decision with
        | create | merge | replace => exact hbefore row hfind
        | reject | conflictReview | noop =>
          rw [hd] at hwrites
          cases hwrites
      · rw [hdriving] at hno
        cases hno
    · rw [driving_of_closing hadv] at hi
      cases hi

theorem CallState.Effect.status (he : st.Effect s s') (hrow : s.mutations.find i = some row)
    (hi : st.driving ≠ some i) : s'.mutations.find i = some row := by
  obtain ⟨row', hrow', rfl | ⟨c, factKey, d, current, rfl, -⟩ | ⟨w, specs, error, phase, rfl, hw, -⟩⟩ :=
    he.row hrow
  · exact hrow'
  · exact absurd rfl hi
  · exact absurd (congrArg some hw) hi

variable {a : Action} {o : Option CallState} {sys sys' : System}

namespace System

/-- A finished mutation is in nobody's hands, an unfinished one in those of one call at most. -/
structure Settled (sys : System) : Prop where
  undriven : ∀ i row, sys.store.mutations.find i = some row → row.status.finished = true →
    ∀ call st, sys.calls call = some st → st.driving ≠ some i
  sole : ∀ a b sa sb i, sys.calls a = some sa → sys.calls b = some sb → sa.driving = some i →
    sb.driving = some i → a = b

/-- A resume that gets its lock finds its mutation unfinished, and no other call is driving it. -/
def Exclusive (sys : System) (a : Action) : Prop :=
  ∀ call now stored, a = .advance call (.goes now) → sys.calls call = some (.waiting stored) →
    sys.locks stored.factKey = none →
    (∀ row, sys.store.mutations.find stored.mutationId = some row → row.status.finished = false) ∧
      ∀ other st, sys.calls other = some st → st.driving ≠ some stored.mutationId

variable {v : MutationService}

theorem driving_of_startState (request : Request) : (startState v request).driving = none := by
  cases request with
  | resumeMutation mutationId => rfl
  | mutate c =>
    simp only [startState]
    split
    · rfl
    · split <;> rfl

theorem Quiet.driving (h : Quiet v o st') (hi : st'.driving = some i) :
    ∃ stored : Mutation, st' = .resuming stored ∧ stored.mutationId = i := by
  cases h with
  | starts request =>
    rw [driving_of_startState] at hi
    cases hi
  | acquires => cases hi
  | resumes stored => exact ⟨stored, rfl, Option.some.inj hi⟩
  | ends => cases hi

/-- An exclusive step leaves finished mutations alone, and the others to one call at most. -/
theorem Settled.step (hs : Sound v sys) (hx : Settled sys) (hok : Exclusive sys a)
    (h : System.step v sys a = some sys') : Settled sys' := by
  -- a call whose new state drives only what nobody else drives keeps the drivers apart
  have hsole : ∀ {call : ℕ} {st' : CallState}, (∀ i, st'.driving = some i → ∀ c sc, c ≠ call →
      sys.calls c = some sc → sc.driving ≠ some i) →
      ∀ a b sa sb i, update sys.calls call (some st') a = some sa →
        update sys.calls call (some st') b = some sb → sa.driving = some i →
        sb.driving = some i → a = b := by
    intro call st' hst' a b sa sb i ha hb hia hib
    rcases calls_update ha with ⟨hac, hsa⟩ | ⟨hnea, ha'⟩
    · rcases calls_update hb with ⟨hbc, -⟩ | ⟨hneb, hb'⟩
      · rw [hac, hbc]
      · rw [hsa] at hia
        exact absurd hib (hst' i hia b sb hneb hb')
    · rcases calls_update hb with ⟨-, hsb⟩ | ⟨hneb, hb'⟩
      · rw [hsb] at hib
        exact absurd hia (hst' i hib a sa hnea ha')
      · exact hx.sole a b sa sb i ha' hb' hia hib
  cases step_moves h with
  | @quiet _ call st' locks hquiet hgrant =>
    have hgot : ∀ i, st'.driving = some i →
        (∀ row, sys.store.mutations.find i = some row → row.status.finished = false) ∧
          ∀ other st, sys.calls other = some st → st.driving ≠ some i := by
      intro i hi
      obtain ⟨stored, hst', rfl⟩ := hquiet.driving hi
      obtain ⟨⟨now, ha⟩, hwaiting, hfree⟩ := hgrant.2 stored hst'
      exact hok call now stored ha hwaiting hfree
    refine ⟨fun i row hrow hfin c sc hsc hi => ?_, hsole fun i hi c sc _ hsc => (hgot i hi).2 c sc hsc⟩
    rcases calls_update hsc with ⟨-, rfl⟩ | ⟨-, hsc⟩
    · rw [(hgot i hi).1 row hrow] at hfin
      cases hfin
    · exact hx.undriven i row hrow hfin c sc hsc hi
  | @advances call answer st st' s' hst hadv =>
    have hk := hs.knows _ _ hst
    have honward := CallState.advance_onward hadv
    have hfresh : ∀ c sc, sys.calls c = some sc → sc.driving ≠ some sys.store.nextId := by
      intro c sc hsc hi
      obtain ⟨row, hrow⟩ := (hs.knows _ _ hsc).driven hi
      exact lt_irrefl _ (hs.fresh _ row hrow)
    have hothers : ∀ i, st'.driving = some i → ∀ c sc, c ≠ call → sys.calls c = some sc →
        sc.driving ≠ some i := by
      intro i hi c sc hne hsc hci
      rcases honward.driving i hi with hold | rfl
      · exact hne (hx.sole c call sc st i hsc hst hci hold)
      · exact hfresh c sc hsc hci
    have hmine : ∀ i row', st'.driving = some i → s'.mutations.find i = some row' →
        row'.status.finished = false := by
      intro i row' hi hrow'
      refine CallState.unfinished_of_driving hk hadv hi hrow' fun row hrow => ?_
      rcases honward.driving i hi with hold | rfl
      · by_contra hfin
        exact hx.undriven i row hrow (by simpa using hfin) call st hst hold
      · exact absurd (hs.fresh _ row hrow) (lt_irrefl _)
    refine ⟨fun i row' hrow' hfin c sc hsc hi => ?_, hsole hothers⟩
    rcases calls_update hsc with ⟨-, rfl⟩ | ⟨hne, hsc⟩
    · have hno := hmine i row' hi hrow'
      rw [hno] at hfin
      cases hfin
    · -- another call drives it, so this one does not and the row is as it was
      obtain ⟨row, hrow⟩ := (hs.knows _ _ hsc).driven hi
      have hnot : st.driving ≠ some i := fun hst' => hne (hx.sole c call sc st i hsc hst hi hst')
      have hsame := (CallState.advance_effect hadv).status hrow hnot
      obtain rfl := Option.some.inj (hrow'.symm.trans hsame)
      exact hx.undriven i row' hrow hfin c sc hsc hi
  | @crashes call effect st hst =>
    refine ⟨fun i row hrow hfin c sc hsc hi => ?_, hsole fun i hi => (by cases hi)⟩
    have hrow₀ : sys.store.mutations.find i = some row := by
      rw [← CallState.effect_mutations sys.store st effect]
      exact hrow
    rcases calls_update hsc with ⟨-, rfl⟩ | ⟨-, hsc⟩
    · cases hi
    · exact hx.undriven i row hrow₀ hfin c sc hsc hi
  | expires => exact ⟨hx.undriven, hx.sole⟩

theorem Settled.keeps (hx : Settled sys) (h : System.step v sys a = some sys')
    (hrow : sys.store.mutations.find i = some row) (hfin : row.status.finished = true) :
    sys'.store.mutations.find i = some row := by
  cases step_moves h with
  | quiet hquiet => exact hrow
  | advances hst hadv =>
    exact (CallState.advance_effect hadv).status hrow (hx.undriven i row hrow hfin _ _ hst)
  | @crashes call effect st hst =>
    show (if effect then st.effect sys.store else sys.store).mutations.find i = some row
    rw [CallState.effect_mutations]
    exact hrow
  | expires => exact hrow

end System

/-! ### Obsolete mutations -/

/-- The phases after `finalize_canonical`. -/
def Phase.finalized : Phase → Bool
  | .checking .. | .activating .. | .retiring .. | .recording .. | .closing => true
  | _ => false

/-- The fact has the version a call wrote, by its mutation, or a later one. -/
def Work.Passed (w : Work) (s : Store) : Prop :=
  ∃ fact, s.facts.find w.factKey = some fact ∧ w.afterVersion ≤ fact.version ∧
    (fact.version = w.afterVersion → fact.lastMutationId = w.mutationId)

theorem Work.Passed.mono {h' : History} {w : Work} (hw : w.Passed s)
    (hmove : st.FactMove s h s' h') : w.Passed s' := by
  obtain ⟨fact, hfact, hle, hlast⟩ := hw
  obtain ⟨fact', hfact', rfl | hlt⟩ := hmove.grows hfact
  · exact ⟨fact', hfact', hle, hlast⟩
  · exact ⟨fact', hfact', by omega, fun heq => by omega⟩

/-- The work of a call that is past `finalize_canonical`. -/
def CallState.past : CallState → Option Work
  | .working w _ _ phase => if phase.finalized then some w else none
  | _ => none

section Past

open CallState

variable {w w' : Work} {specs : List Projection} {error : Option String}

theorem past_finish (factKey : String) (ending : Except MemoryError MutationResult) :
    (finish factKey ending).past = none := by
  cases ending <;> rfl

theorem past_nextTarget (target : MemoryTarget) : (nextTarget w specs error target).past = none := by
  have hstaged : (staged w specs error).past = none := by
    cases error <;> rfl
  cases target with
  | graph => exact hstaged
  | vector =>
    simp only [nextTarget]
    split
    · rfl
    · exact hstaged

theorem past_firstTarget : (firstTarget w).past = none := by
  unfold firstTarget
  split
  · rfl
  · exact past_nextTarget _

theorem past_committed {next : Mutation → CallState} {r : Except MemoryError (Store × Mutation)}
    (hnext : ∀ row, (next row).past = none) (h : committed factKey next s r = (s', st')) :
    st'.past = none := by
  cases r with
  | ok r =>
    cases h
    exact hnext _
  | error e =>
    cases h
    rfl

theorem Phase.past_of_step {now : ℤ} (h : phase.step s w specs error now = (s', st'))
    (hphase : phase.finalized = false) (hne : phase ≠ .finalizing) : st'.past = none := by
  cases phase with
  | applying => exact past_committed (fun _ => past_firstTarget) h
  | building target =>
    simp only [Phase.step] at h
    split at h <;> cases h
    · rfl
    · cases w.resumed <;> rfl
  | probing p =>
    simp only [Phase.step] at h
    split at h <;> (cases h; rfl)
  | staging p =>
    cases h
    rfl
  | settling p status => exact past_committed (fun _ => past_nextTarget _) h
  | failing errorCode => exact past_committed (fun _ => past_finish _ _) h
  | finalizing => exact absurd rfl hne
  | checking | activating | retiring | recording | closing => cases hphase

theorem past_of_follows (hst : Follows w st) (hp : st.past = some w') : w' = w := by
  cases st with
  | working w₁ specs error phase =>
    have hw : w₁ = w := hst
    simp only [past] at hp
    split at hp <;> cases hp
    exact hw
  | reporting | releasing => cases hp
  | _ => exact hst.elim

end Past

/-- The fact a call wrote stays at its version, or goes on to a later one. -/
theorem CallState.advance_passed {v : MutationService} {a : Answer}
    (hrows : ∀ i row, s.mutations.find i = some row → row.Sound v h) (hk : st.Knows v s h)
    (hadv : st.advance v s a = some (s', st')) (hpassed : ∀ w, st.past = some w → w.Passed s) {w : Work}
    (hp : st'.past = some w) : w.Passed s' := by
  have hmove := advance_factMove hrows hk hadv
  have honward := advance_onward hadv
  cases st with
  | working w₀ specs error phase =>
    have hpast : ∀ w', phase.finalized = true → w' = w₀ → w'.Passed s' := by
      intro w' hphase hw
      refine (hpassed w' ?_).mono hmove
      simp only [past, hphase, hw, if_true]
    cases a with
    | goes now =>
      simp only [advance, step, Option.some.injEq] at hadv
      have hw := past_of_follows (Phase.step_follows hadv) hp
      cases hphase : phase.finalized with
      | true => exact hpast w hphase hw
      | false =>
        by_cases hfin : phase = .finalizing
        · subst hfin
          rw [hw] at hp ⊢
          simp only [Phase.step] at hadv
          obtain ⟨row, fact, hrow, hfact, hfin, heq⟩ | ⟨row, hrow, hnot, hversion, heq⟩ |
            ⟨-, e, heq⟩ := finalizeCanonical_cases s w₀ now
          · rw [heq] at hadv
            cases hadv
            exact ⟨fact, hfact, hfin.2.ge, fun _ => hfin.1⟩
          · rw [heq] at hadv
            cases hadv
            obtain ⟨row₀, hrow₀, hdesc⟩ := hk
            rw [hrow] at hrow₀
            cases hrow₀
            have hafter := Work.after_eq hdesc (hrows _ _ hrow)
            refine ⟨w₀.fact (s.facts.find w₀.factKey) now,
              (Table.find_upsert _ _ _).trans (if_pos rfl), ?_, fun _ => rfl⟩
            show w₀.afterVersion ≤ w₀.version _
            rw [Work.version_eq hafter hversion, hafter]
          · rw [heq] at hadv
            cases hadv
            cases hp
        · rw [Phase.past_of_step hadv hphase hfin] at hp
          cases hp
    | fails effect errorCode =>
      cases phase with
      | staging =>
        cases hadv
        cases hp
      | activating | retiring =>
        cases hadv
        exact hpast w rfl (past_of_follows (follows_nextActivation _) hp)
      | _ => cases hadv
    | raises effect =>
      cases hadv
      cases hp
  | _ =>
    -- a call that begins to work is not past anything
    cases st' with
    | working w₁ specs error phase =>
      obtain ⟨-, -, hphase⟩ | ⟨specs', error', phase', hst⟩ := honward.working _ _ _ _ rfl
      · rw [hphase] at hp
        cases hp
      · cases hst
    | _ => cases hp

variable {fact : Fact} {acts : List Action} {n : ℕ}

namespace System

/-- Every call past `finalize_canonical` has left its version behind. -/
def Passed (sys : System) : Prop :=
  ∀ call st w, sys.calls call = some st → st.past = some w → w.Passed sys.store

variable {v : MutationService}

theorem Quiet.past (h : Quiet v o st') : st'.past = none := by
  cases h with
  | starts request =>
    cases request with
    | resumeMutation mutationId => rfl
    | mutate c =>
      simp only [startState]
      split
      · rfl
      · split <;> rfl
  | acquires | resumes | ends => rfl

/-- Every call past its finalization still has its version behind it. -/
theorem Passed.step (hs : Sound v sys) (hpassed : Passed sys)
    (h : System.step v sys a = some sys') : Passed sys' := by
  cases step_moves h with
  | quiet hquiet =>
    intro c sc w hsc hw
    rcases calls_update hsc with ⟨-, rfl⟩ | ⟨-, hsc⟩
    · rw [hquiet.past] at hw
      cases hw
    · exact hpassed c sc w hsc hw
  | @advances call answer st st' s' hst hadv =>
    have hk := hs.knows _ _ hst
    intro c sc w hsc hw
    rcases calls_update hsc with ⟨-, rfl⟩ | ⟨-, hsc⟩
    · exact CallState.advance_passed hs.rows hk hadv (fun w hw => hpassed call st w hst hw) hw
    · exact (hpassed c sc w hsc hw).mono (CallState.advance_factMove hs.rows hk hadv)
  | @crashes call effect st hst =>
    intro c sc w hsc hw
    rcases calls_update hsc with ⟨-, rfl⟩ | ⟨-, hsc⟩
    · cases hw
    · exact (hpassed c sc w hsc hw).mono
        (CallState.factMove_if sys.store sys.history st effect)
  | expires => exact hpassed

/-- The mutation decided to write, is unfinished, and its fact has been written by another mutation
since: it has a later version than the decision saw. -/
structure ObsoleteRow (s : Store) (i : ℕ) (row : Mutation) (fact : Fact) : Prop where
  found : s.mutations.find i = some row
  unfinished : row.status.finished = false
  decision : ∃ x, row.decision = some x ∧ x.writes = true
  current : s.facts.find row.factKey = some fact
  other : fact.lastMutationId ≠ i
  later : ∀ before, row.beforeVersion = some before → before < fact.version

def Obsolete (sys : System) (i : ℕ) : Prop := ∃ row fact, ObsoleteRow sys.store i row fact

theorem ObsoleteRow.fact_mono {h' : History} (ho : ObsoleteRow s i row fact)
    (hmove : st.FactMove s h s' h') : ∃ fact', s'.facts.find row.factKey = some fact' ∧
      fact'.lastMutationId ≠ i ∧ ∀ before, row.beforeVersion = some before →
        before < fact'.version := by
  have hfact := ho.current
  cases hmove with
  | same hfacts hfin =>
    rw [hfacts]
    exact ⟨fact, hfact, ho.other, ho.later⟩
  | @reviewed mutationId c k now hst hnone hfacts hfin =>
    refine ⟨fact, ?_, ho.other, ho.later⟩
    rw [hfacts, Table.find_upsert, if_neg]
    · exact hfact
    · intro hkey
      have hkey' : row.factKey = k := hkey
      rw [hkey', hnone] at hfact
      cases hfact
  | @finalized w specs error row₀ now hst hrow hdesc hafter hbefore hfacts hfin =>
    rw [hfacts, Table.find_upsert]
    by_cases hkey : row.factKey = w.factKey
    · have hversion : w.beforeVersion = some fact.version := by
        rw [← hbefore, ← hkey, hfact]
        rfl
      refine ⟨_, if_pos hkey, ?_, fun before hb => ?_⟩
      · -- a mutation that saw the present version is not the obsolete one
        intro hlast
        have hid : w.mutationId = i := hlast
        rw [hid, ho.found] at hrow
        cases hrow
        have hsaw := hdesc.before
        rw [hversion] at hsaw
        exact lt_irrefl _ (ho.later _ hsaw)
      · show before < nextVersion w.beforeVersion
        rw [hversion]
        exact Nat.lt_succ_of_lt (ho.later before hb)
    · exact ⟨fact, (if_neg hkey).trans hfact, ho.other, ho.later⟩

theorem ObsoleteRow.row_mono (hs : Sound v sys) (hpassed : Passed sys) (ho : ObsoleteRow sys.store i row fact)
    {call : ℕ} (hst : sys.calls call = some st) (he : st.Effect sys.store s') :
    ∃ row', s'.mutations.find i = some row' ∧ row'.core = row.core ∧
      row'.status.finished = false := by
  have hk := hs.knows _ _ hst
  obtain ⟨x, hx, hwrites⟩ := ho.decision
  obtain ⟨row', hrow', hcore⟩ := he.row_core hk ho.found (.inl (by rw [hx]; simp))
  refine ⟨row', hrow', hcore, ?_⟩
  by_contra hfin
  rcases he.finishes ho.found hrow' ho.unfinished (by simpa using hfin) with
    ⟨c, factKey, d, current, rfl, -⟩ | ⟨w, specs, error, fact', rfl, hw, hfact', hafter⟩
  · obtain ⟨row₀, hrow₀, -, -, hnone, -⟩ := hk
    rw [ho.found] at hrow₀
    cases hrow₀
    rw [hx] at hnone
    cases hnone
  · -- `mark_applied` finds the version of the mutation, and then the fact is the mutation's own
    obtain ⟨row₀, hrow₀, hdesc⟩ := hk
    rw [hw, ho.found] at hrow₀
    cases hrow₀
    rw [ho.current] at hfact'
    cases hfact'
    obtain ⟨fact₁, hfact₁, -, hlast⟩ := hpassed call _ w hst rfl
    rw [← hdesc.factKey, ho.current] at hfact₁
    cases hfact₁
    rw [hdesc.after] at hafter
    exact ho.other ((hlast (Option.some.inj hafter).symm).trans hw)

/-- An unfinished mutation that its fact has left behind stays so. -/
theorem Obsolete.step (hs : Sound v sys) (hpassed : Passed sys) (ho : Obsolete sys i)
    (h : System.step v sys a = some sys') : Obsolete sys' i := by
  obtain ⟨row, fact, ho⟩ := ho
  have hstep : ∀ {call : ℕ} {st : CallState} {s' : Store} {h' : History},
      sys.calls call = some st → st.Effect sys.store s' →
      st.FactMove sys.store sys.history s' h' → ∃ row fact, ObsoleteRow s' i row fact := by
    intro call st s' h' hst he hmove
    obtain ⟨row', hrow', hcore, hunfinished⟩ := ho.row_mono hs hpassed hst he
    obtain ⟨fact', hfact', hother, hlater⟩ := ho.fact_mono hmove
    obtain ⟨x, hx, hwrites⟩ := ho.decision
    refine ⟨row', fact', hrow', hunfinished, ⟨x, (Mutation.decision_of_core hcore).trans hx,
      hwrites⟩, ?_, hother, fun before hb => ?_⟩
    · rw [Mutation.factKey_of_core hcore]
      exact hfact'
    · rw [Mutation.before_of_core hcore] at hb
      exact hlater before hb
  cases step_moves h with
  | quiet hquiet => exact ⟨row, fact, ho⟩
  | advances hst hadv =>
    exact hstep hst (CallState.advance_effect hadv)
      (CallState.advance_factMove hs.rows (hs.knows _ _ hst) hadv)
  | @crashes call effect st hst =>
    exact hstep hst (CallState.effect_if sys.store st effect)
      (CallState.factMove_if sys.store sys.history st effect)
  | expires => exact ⟨row, fact, ho⟩

theorem passed_of_exec (h : exec (System.step v) initial acts = some sys) : Passed sys := by
  have hboth : Sound v sys ∧ Passed sys :=
    exec_preserves (I := fun sys => Sound v sys ∧ Passed sys)
      (fun _ _ _ hs hstep => ⟨hs.1.step hstep, hs.2.step hs.1 hstep⟩) h
      ⟨sound_initial v, fun call st w hst => (by cases hst)⟩
  exact hboth.2

/-- **Finished mutations stay finished, obsolete ones stay unfinished.**  In a run whose resumes, when
they get their lock, find their mutation unfinished and in nobody else's hands, a finished mutation
keeps its row as it is.  And in every run a mutation whose fact has moved on is finished by no resume
and nothing else, and the fact never becomes its own. -/
theorem finished_stays_finished {v : MutationService} {acts later : List Action} {sys sys' : System}
    (h : exec (System.step v) initial acts = some sys) (hlater : exec (System.step v) sys later = some sys') :
    (Meets (System.step v) Exclusive initial (acts ++ later) → ∀ i row,
      sys.store.mutations.find i = some row → row.status.finished = true →
      sys'.store.mutations.find i = some row) ∧
      ∀ i, Obsolete sys i → Obsolete sys' i := by
  have hs := sound_of_exec h
  refine ⟨fun hok i row hrow hfin => ?_, fun i ho => ?_⟩
  · obtain ⟨hacts, hrest⟩ := meets_append.mp hok
    have hsettled : Sound v sys ∧ Settled sys :=
      exec_invariant (I := fun s => Sound v s ∧ Settled s)
        (fun _ _ _ hs hok hstep => ⟨hs.1.step hstep, hs.2.step hs.1 hok hstep⟩) hacts h
        ⟨sound_initial v, ⟨fun i row hrow => (by cases hrow), fun a b sa sb i ha => (by cases ha)⟩⟩
    have hkept : (Sound v sys' ∧ Settled sys') ∧ sys'.store.mutations.find i = some row :=
      exec_invariant
        (I := fun s => (Sound v s ∧ Settled s) ∧ s.store.mutations.find i = some row)
        (fun _ _ _ hs hok hstep => ⟨⟨hs.1.1.step hstep, hs.1.2.step hs.1.1 hok hstep⟩,
          hs.1.2.keeps hstep hs.2 hfin⟩)
        (hrest sys h) hlater ⟨hsettled, hrow⟩
    exact hkept.2
  · have hall : Sound v sys' ∧ Passed sys' ∧ Obsolete sys' i :=
      exec_preserves (I := fun s => Sound v s ∧ Passed s ∧ Obsolete s i)
        (fun _ _ _ hs hstep => ⟨hs.1.step hstep, hs.2.1.step hs.1 hstep,
          hs.2.2.step hs.1 hs.2.1 hstep⟩) hlater ⟨hs, passed_of_exec h, ho⟩
    exact hall.2.2

def status (sys : System) (i : ℕ) : Option MutationStatus :=
  (sys.store.mutations.find i).map Mutation.status

/-- A mutation whose projection cannot be staged. -/
def partialRun : List Action :=
  [.start 0 (.mutate (exampleCommand "K-1" "open" none))] ++ goes 0 8 ++
    [.advance 0 (.fails false "PROJECTION_TIMEOUT")] ++ goes 0 4

/-- A resume brings it to its end; then it is resumed again. -/
def resumedRun : List Action :=
  partialRun ++ [.start 1 (.resumeMutation 0)] ++ goes 1 16

/-- `Exclusive`, in a run whose calls have small numbers. -/
def exclusiveBelow (n : ℕ) (sys : System) (a : Action) : Bool :=
  decide (∀ call ∈ a.call, call < n) &&
    match a with
    | .advance call (.goes _) =>
      match sys.calls call with
      | some (.waiting stored) =>
        decide ((∀ row ∈ sys.store.mutations.find stored.mutationId,
            row.status.finished = false) ∧
          ∀ other < n, ∀ st ∈ sys.calls other, st.driving ≠ some stored.mutationId)
      | _ => true
    | _ => true

theorem calls_below (hcalls : ∀ c, n ≤ c → sys.calls c = none) (hbound : ∀ call ∈ a.call, call < n)
    (h : System.step v sys a = some sys') : ∀ c, n ≤ c → sys'.calls c = none := by
  have hupdate : ∀ {call : ℕ} {o : Option CallState}, call < n → ∀ c, n ≤ c →
      update sys.calls call o c = none := by
    intro call o hlt c hc
    rw [update_of_ne (by omega)]
    exact hcalls c hc
  cases a with
  | start call request =>
    simp only [System.step] at h
    split at h
    · cases h
      exact hupdate (hbound call rfl)
    · cases h
  | advance call answer =>
    have hlt := hbound call rfl
    obtain ⟨st, hst, h⟩ := Option.bind_eq_some_iff.mp h
    split at h
    · cases h
      unfold acquire
      split <;> exact hupdate hlt
    · cases h
      unfold acquire
      split <;> exact hupdate hlt
    · cases h
      exact hupdate hlt
    · obtain ⟨⟨s', st'⟩, -, rfl⟩ := Option.map_eq_some_iff.mp h
      exact hupdate hlt
  | crash call effect =>
    simp only [System.step] at h
    split at h
    · cases h
    · cases h
    · cases h
      exact hupdate (hbound call rfl)
  | expire factKey =>
    cases h
    exact hcalls

theorem exclusive_of_below (h : Meets (System.step v) (fun s a => exclusiveBelow n s a = true) initial acts) :
    Meets (System.step v) Exclusive initial acts := by
  refine Meets.mono_of_invariant (I := fun s => ∀ c, n ≤ c → s.calls c = none)
    (fun _ _ _ hI hok hstep =>
      calls_below hI (of_decide_eq_true (Bool.and_eq_true_iff.mp hok).1) hstep)
    (fun sys a hI hok => ?_)
    (fun c _ => rfl) h
  intro call now stored ha hwaiting hfree
  subst ha
  have hcond := (Bool.and_eq_true_iff.mp hok).2
  simp only [hwaiting] at hcond
  obtain ⟨hrow, hothers⟩ := of_decide_eq_true hcond
  refine ⟨fun row hfind => hrow row hfind, fun other st hst => ?_⟩
  by_cases hlt : other < n
  · exact hothers other hlt st hst
  · rw [hI other (not_lt.mp hlt)] at hst
    cases hst

/-- A mutation that is resumed once more when it is applied. -/
theorem finished_stays_finished_resumed : ∃ sys sys' row,
    exec (System.step exampleService) initial resumedRun = some sys ∧
    exec (System.step exampleService) sys (.start 2 (.resumeMutation 0) :: goes 2 1) = some sys' ∧
    row.status = .applied ∧ sys'.store.mutations.find 0 = some row := by
  have hrun : ((exec (System.step exampleService) initial resumedRun).bind fun sys =>
      (sys.store.mutations.find 0).bind fun row =>
      (exec (System.step exampleService) sys (.start 2 (.resumeMutation 0) :: goes 2 1)).map
        fun _ => decide (row.status = .applied)) = some true := by decide +kernel
  obtain ⟨sys, hsys, hrun⟩ := Option.bind_eq_some_iff.mp hrun
  obtain ⟨row, hrow, hrun⟩ := Option.bind_eq_some_iff.mp hrun
  obtain ⟨sys', hsys', hrun⟩ := Option.map_eq_some_iff.mp hrun
  have hstatus := of_decide_eq_true hrun
  have hmeets : Meets (System.step exampleService) (fun s a => exclusiveBelow 3 s a = true) initial
      (resumedRun ++ .start 2 (.resumeMutation 0) :: goes 2 1) := by decide +kernel
  refine ⟨sys, sys', row, hsys, hsys', hstatus, ?_⟩
  exact (finished_stays_finished hsys hsys').1 (exclusive_of_below hmeets) 0 row hrow
    (by rw [hstatus]; rfl)

/-- Two resumes read the mutation before either has the lock; the second gets it when the first is
through. -/
def doubleResumeRun : List Action :=
  partialRun ++ [.start 1 (.resumeMutation 0)] ++ goes 1 1 ++ [.start 2 (.resumeMutation 0)] ++
    goes 2 1 ++ goes 1 15

/-- The fact is created by another mutation before the first is resumed. -/
def obsoleteRun : List Action :=
  partialRun ++ [.start 1 (.mutate (exampleCommand "K-2" "closed" none))] ++ goes 1 17 ++
    [.start 2 (.resumeMutation 0)] ++ goes 2 10

/-- The applied mutation is `APPLYING` again three steps later, and the obsolete one ends with a
version conflict and stays `APPLYING`. -/
theorem finished_is_left :
    ((exec (System.step exampleService) initial doubleResumeRun).map fun sys => sys.status 0)
        = some (some .applied) ∧
      ((exec (System.step exampleService) initial (doubleResumeRun ++ goes 2 3)).map fun sys =>
        sys.status 0) = some (some .applying) ∧
      ((exec (System.step exampleService) initial obsoleteRun).map fun sys =>
        (sys.raised 2, sys.status 0)) =
        some (some (.versionConflict "R-1" none (some 1)), some .applying) := by
  decide +kernel

end System

end CountyFlow.Memory
