import CountyFlow.Memory.Chain

/-!
# What may overwrite a fact

A fact that is there changes through the finalization of a mutation, and the mutation was decided
about the very version it replaces.  So what the policy saw is what is overwritten.
-/

namespace CountyFlow.Memory

open CountyFlow.Lib

structure FactSnapshot.Shows (seen : FactSnapshot) (fact : Fact) : Prop where
  version : seen.version = fact.version
  content : seen.contentFingerprint = fact.contentFingerprint
  confidence : seen.confidence = fact.confidence
  status : seen.status = fact.status
  updatedAt : seen.updatedAt = fact.updatedAt
  expiresAt : seen.expiresAt = fact.expiresAt

variable {s : Store} {factKey : String} {seen : FactSnapshot}

theorem Store.loadFact_shows (h : s.loadFact factKey = some seen) : seen.factKey = factKey ∧
      ∃ fact, s.facts.find factKey = some fact ∧ seen.Shows fact := by
  obtain ⟨fact, hfact, rfl⟩ := Option.map_eq_some_iff.mp h
  have hkey : fact.factKey = factKey := Table.find_key hfact
  exact ⟨hkey, fact, hfact, rfl, rfl, rfl, rfl, rfl, rfl⟩

/-- What a decision saw of a fact is what it still is, or an older version. -/
def FactSnapshot.Was (seen : FactSnapshot) (s : Store) : Prop :=
  ∃ fact, s.facts.find seen.factKey = some fact ∧ seen.version ≤ fact.version ∧
    (fact.version = seen.version → seen.Shows fact)

variable {s' : Store} {h h' : History} {st : CallState}

theorem FactSnapshot.Was.mono (hwas : seen.Was s) (hmove : st.FactMove s h s' h') : seen.Was s' := by
  obtain ⟨fact, hfact, hle, hshows⟩ := hwas
  obtain ⟨fact', hfact', rfl | hlt⟩ := hmove.grows hfact
  · exact ⟨fact', hfact', hle, hshows⟩
  · exact ⟨fact', hfact', by omega, fun heq => by omega⟩

/-- A decision was about the fact of its mutation. -/
def DecisionRecord.Seen (s : Store) (r : DecisionRecord) : Prop :=
  ∃ row, s.mutations.find r.mutationId = some row ∧
    ∀ seen, r.current = some seen → seen.factKey = row.factKey ∧ seen.Was s

variable {r : DecisionRecord}

theorem DecisionRecord.Seen.mono (hr : r.Seen s) (he : st.Effect s s')
    (hmove : st.FactMove s h s' h') : r.Seen s' := by
  obtain ⟨row, hrow, hseen⟩ := hr
  obtain ⟨row', hrow', hcases⟩ := he.row hrow
  have hkey : row'.factKey = row.factKey := by
    rcases hcases with rfl | ⟨c, factKey, d, current, -, rfl⟩ | ⟨w, specs, error, phase, -, -, hcore⟩
    · rfl
    · rfl
    · exact Mutation.factKey_of_core hcore
  refine ⟨row', hrow', fun seen hcurrent => ?_⟩
  obtain ⟨hfact, hwas⟩ := hseen seen hcurrent
  exact ⟨hfact.trans hkey.symm, hwas.mono hmove⟩

variable {v : MutationService} {sys : System}

namespace System

def Seen (sys : System) : Prop := ∀ r ∈ sys.history.decisions, r.Seen sys.store

theorem decisions_record {a : Answer} (hr : r ∈ (h.record v s s' st a).decisions) :
    r ∈ h.decisions ∨ ∃ c factKey, st = .loading r.mutationId c factKey ∧
      r.current = s.loadFact factKey := by
  cases a with
  | goes now =>
    simp only [History.record, History.observe] at hr
    split at hr
    · rename_i mutationId c factKey
      split at hr
      · rcases List.mem_append.mp hr with hr | hr
        · exact .inl hr
        · obtain rfl := List.mem_singleton.mp hr
          exact .inr ⟨c, factKey, rfl, rfl⟩
      · exact .inl hr
    · split at hr
      · split at hr <;> exact .inl hr
      · exact .inl hr
    · exact .inl hr
  | fails | raises => exact .inl hr

/-- A decision that is added has seen its fact, and the others still have. -/
theorem Seen.step {sys' : System} {a : Action} (hs : Sound v sys) (hseen : Seen sys)
    (h : System.step v sys a = some sys') : Seen sys' := by
  cases step_moves h with
  | quiet hquiet => exact hseen
  | @advances call answer st st' s' hst hadv =>
    have hk := hs.knows _ _ hst
    have he := CallState.advance_effect hadv
    have hmove := CallState.advance_factMove hs.rows hk hadv
    intro r hr
    rcases decisions_record hr with hold | ⟨c, factKey, rfl, hcurrent⟩
    · exact (hseen r hold).mono he hmove
    · obtain ⟨row, hrow, -, hkey, -⟩ := hk
      have hnow : r.Seen sys.store := by
        refine ⟨row, hrow, fun seen hsome => ?_⟩
        rw [hcurrent] at hsome
        obtain ⟨hfactKey, fact, hfact, hshows⟩ := Store.loadFact_shows hsome
        refine ⟨hfactKey.trans hkey.symm, fact, ?_, hshows.version.le, fun _ => hshows⟩
        rw [hfactKey]
        exact hfact
      exact hnow.mono he hmove
  | @crashes call effect st hst =>
    intro r hr
    exact (hseen r hr).mono (CallState.effect_if sys.store st effect)
      (CallState.factMove_if sys.store sys.history st effect)
  | expires => exact hseen

theorem seen_of_exec {acts : List Action} (h : exec (System.step v) initial acts = some sys) : Seen sys := by
  have hboth : Sound v sys ∧ Seen sys :=
    exec_preserves (I := fun sys => Sound v sys ∧ Seen sys)
      (fun _ _ _ hs hstep => ⟨hs.1.step hstep, hs.2.step hs.1 hstep⟩) h
      ⟨sound_initial v, fun r hr => (by cases hr)⟩
  exact hboth.2

end System

/-! ### Decisions that write nothing -/

def CallState.mutation : CallState → Option ℕ
  | .replaying mutationId _ | .requesting mutationId _ _ | .loading mutationId _ _
  | .deciding mutationId _ _ _ _ | .evidencing mutationId _ _ _ _ | .reviewing mutationId _ _
  | .concluding mutationId _ => some mutationId
  | .waiting stored | .resuming stored => some stored.mutationId
  | .working w _ _ _ => some w.mutationId
  | .acquiring .. | .beginning .. | .reading _ | .reporting .. | .releasing .. | .done _ => none

theorem CallState.Effect.projections (h : st.Effect s s') :
    s'.projections = s.projections ∨ ∃ w specs error phase,
      st = .working w specs error phase ∧ s' = Phase.effect s phase := by
  cases h with
  | noted =>
    refine .inl ?_
    unfold Store.appendEvidence
    split <;> rfl
  | @projected w specs error phase => exact .inr ⟨w, specs, error, phase, rfl, rfl⟩
  | _ => exact .inl rfl

variable {row : Mutation} {x : MutationDecision}

theorem CallState.not_working {w : Work} {specs : List Projection} {error : Option String} {phase : Phase}
    (hst : st = .working w specs error phase) (hk : st.Knows v s h) (he : st.Effect s s')
    (hrow : s'.mutations.find w.mutationId = some row) (hx : row.decision = some x) : x.writes = true := by
  subst hst
  have hk' := hk
  obtain ⟨row₀, hrow₀, hdesc⟩ := hk'
  obtain ⟨y, hy, hwrites⟩ := hdesc.decision
  obtain ⟨row', hrow', hcore⟩ := he.row_core hk hrow₀ (.inl (by rw [hy]; simp))
  rw [hrow] at hrow'
  cases hrow'
  rw [Mutation.decision_of_core hcore, hy] at hx
  rw [← Option.some.inj hx]
  exact hwrites

namespace System

/-- A fact a step has changed, and the mutation that changed it. -/
structure Overwritten (v : MutationService) (sys : System) (fact fact' : Fact) (row : Mutation) :
    Prop where
  found : sys.store.mutations.find fact'.lastMutationId = some row
  factKey : row.factKey = fact.factKey
  decision : ∃ x, row.decision = some x ∧ x.writes = true
  good : row.command.humanConfirmed = true ∨
    v.policySettings.autoApplyMinConfidence ≤ row.command.confidence.value
  content : fact'.contentFingerprint = fact.contentFingerprint ∨
    row.command.humanConfirmed = true ∨
    ∃ r ∈ sys.history.decisions, r.mutationId = fact'.lastMutationId ∧
      ∃ seen, r.current = some seen ∧ seen.Shows fact ∧ seen.isExpired r.now = true

theorem overwritten_of_factMove (hs : Sound v sys) (hseen : Seen sys)
    (hmove : st.FactMove sys.store sys.history s' h') {fact : Fact}
    (hfact : sys.store.facts.find factKey = some fact) :
    ∃ fact', s'.facts.find factKey = some fact' ∧
      (fact' = fact ∨ ∃ row, Overwritten v sys fact fact' row) := by
  cases hmove with
  | same hfacts hfin =>
    rw [hfacts]
    exact ⟨fact, hfact, .inl rfl⟩
  | @reviewed mutationId c k now hst hnone hfacts hfin =>
    refine ⟨fact, ?_, .inl rfl⟩
    rw [hfacts, Table.find_upsert, if_neg]
    · exact hfact
    · intro hk
      have hk' : factKey = k := hk
      rw [hk', hnone] at hfact
      cases hfact
  | @finalized w specs error row now hst hrow hdesc hafter hbefore hfacts hfin =>
    rw [hfacts, Table.find_upsert]
    by_cases hk : factKey = w.factKey
    · refine ⟨_, if_pos hk, .inr ⟨row, ?_⟩⟩
      have hsound := hs.rows _ _ hrow
      have hdecision := hdesc.decision
      obtain ⟨x, hx, hwrites⟩ := hdecision
      obtain ⟨d, current, ⟨t, hmem, heval⟩, rfl, hrowBefore, -⟩ := hsound.decided x hx
      rcases evaluateMutation_cases heval with ⟨-, hw⟩ | ⟨hno, -⟩
      · -- the decision saw the version that is now overwritten
        have hversion : current.map FactSnapshot.version = some fact.version := by
          rw [← hw.before, ← hrowBefore, hdesc.before, ← hbefore, ← hk, hfact]
          rfl
        obtain ⟨seen, rfl, hseenVersion⟩ := Option.map_eq_some_iff.mp hversion
        obtain ⟨row₀, hrow₀, hall⟩ := hseen _ hmem
        obtain ⟨hseenKey, fact₀, hfact₀, -, hshows⟩ := hall seen rfl
        have hid : row.mutationId = w.mutationId := Table.find_key hrow
        have hrow₀' : sys.store.mutations.find w.mutationId = some row₀ := by
          rw [← hid]
          exact hrow₀
        rw [hrow] at hrow₀'
        cases hrow₀'
        rw [hseenKey, hdesc.factKey, ← hk, hfact] at hfact₀
        cases hfact₀
        have hsees := hshows hseenVersion.symm
        refine ⟨hrow, ?_, hdesc.decision, hw.good, ?_⟩
        · have hfactKey : fact.factKey = factKey := Table.find_key hfact
          rw [hdesc.factKey, hfactKey, hk]
        · have hcontent := hw.content seen rfl
          rw [hdesc.command] at hcontent ⊢
          rcases hcontent with hsame | hhuman | hexpired
          · exact .inl (hsame.trans hsees.content)
          · exact .inr (.inl hhuman)
          · refine .inr (.inr ⟨_, hmem, hid, seen, rfl, hsees, hexpired⟩)
      · rw [hwrites] at hno
        cases hno
    · exact ⟨fact, (if_neg hk).trans hfact, .inl rfl⟩

theorem idle_of_decision (hs : Sound v sys) {call : ℕ} (hst : sys.calls call = some st)
    (he : st.Effect sys.store s') (hmove : st.FactMove sys.store sys.history s' h') {i : ℕ}
    (hi : st.mutation = some i) (hrow : s'.mutations.find i = some row) (hx : row.decision = some x)
    (hno : x.writes = false) : s'.projections = sys.store.projections ∧
      ∀ factKey fact, sys.store.facts.find factKey = some fact →
        s'.facts.find factKey = some fact := by
  have hk := hs.knows _ _ hst
  have hidle : ∀ {w specs error phase}, st ≠ .working w specs error phase := by
    intro w specs error phase hw
    have hwi : w.mutationId = i := by
      rw [hw] at hi
      exact Option.some.inj hi
    rw [← hwi] at hrow
    rw [CallState.not_working hw hk he hrow hx] at hno
    cases hno
  refine ⟨?_, fun factKey fact hfact => ?_⟩
  · rcases he.projections with hsame | ⟨w, specs, error, phase, hw, -⟩
    · exact hsame
    · exact absurd hw hidle
  · cases hmove with
    | same hfacts hfin =>
      rw [hfacts]
      exact hfact
    | @reviewed mutationId c k now hw hnone hfacts hfin =>
      rw [hfacts, Table.find_upsert, if_neg]
      · exact hfact
      · intro hk
        have hk' : factKey = k := hk
        rw [hk', hnone] at hfact
        cases hfact
    | finalized now hw => exact absurd hw hidle

/-- **Unconfirmed evidence never overwrites a live fact.**  In every run a fact that is there stays
there.  When a step changes it, a mutation that wrote it is to blame, and its command is confirmed
by a human or reaches the threshold; when its content changes, the command is confirmed by a human
or the decision saw the fact, as it was just before, expired.  A step of a call whose mutation is
rejected, put to review or a duplicate changes no fact that is there and no projection. -/
theorem live_fact_kept {v : MutationService} {acts : List Action} {sys sys' : System} {a : Action}
    (h : exec (System.step v) initial acts = some sys) (hstep : System.step v sys a = some sys') :
    (∀ factKey fact, sys.store.facts.find factKey = some fact →
      ∃ fact', sys'.store.facts.find factKey = some fact' ∧
        (fact' = fact ∨ ∃ row, Overwritten v sys fact fact' row)) ∧
      ∀ call st i row x, a.call = some call → sys.calls call = some st →
        st.mutation = some i → sys'.store.mutations.find i = some row → row.decision = some x →
        x.writes = false → sys'.store.projections = sys.store.projections ∧
          ∀ factKey fact, sys.store.facts.find factKey = some fact →
            sys'.store.facts.find factKey = some fact := by
  have hs := sound_of_exec h
  have hseen := seen_of_exec h
  cases step_moves hstep with
  | quiet hquiet => exact ⟨fun _ fact hfact => ⟨fact, hfact, .inl rfl⟩,
      fun _ _ _ _ _ _ _ _ _ _ _ => ⟨rfl, fun _ _ hfact => hfact⟩⟩
  | @advances call answer st st' s' hst hadv =>
    have he := CallState.advance_effect hadv
    have hmove := CallState.advance_factMove hs.rows (hs.knows _ _ hst) hadv
    refine ⟨fun _ _ hfact => overwritten_of_factMove hs hseen hmove hfact, ?_⟩
    intro call' st₀ i row x hcall hst₀ hi hrow hx hno
    cases hcall
    rw [hst] at hst₀
    cases hst₀
    exact idle_of_decision hs hst he hmove hi hrow hx hno
  | @crashes call effect st hst =>
    have he := CallState.effect_if sys.store st effect
    have hmove := CallState.factMove_if sys.store sys.history st effect
    refine ⟨fun _ _ hfact => overwritten_of_factMove hs hseen hmove hfact, ?_⟩
    intro call' st₀ i row x hcall hst₀ hi hrow hx hno
    cases hcall
    rw [hst] at hst₀
    cases hst₀
    exact idle_of_decision hs hst he hmove hi hrow hx hno
  | expires => exact ⟨fun _ fact hfact => ⟨fact, hfact, .inl rfl⟩,
      fun _ _ _ _ _ _ _ _ _ _ _ => ⟨rfl, fun _ _ hfact => hfact⟩⟩

/-- A fact is created, and a human is about to correct it. -/
def correctionRun : List Action :=
  [.start 0 (.mutate (exampleCommand "K-1" "open" none))] ++ goes 0 17 ++
    [.start 1 (.mutate (exampleCommand "K-2" "closed" (some 1)))] ++ goes 1 10

/-- The correction is a human's. -/
theorem live_fact_kept_correction : ∃ sys sys' fact fact' row,
    exec (System.step exampleService) initial correctionRun = some sys ∧
    System.step exampleService sys (.advance 1 (.goes 0)) = some sys' ∧
    sys.store.facts.find "R-1" = some fact ∧ sys'.store.facts.find "R-1" = some fact' ∧
    fact'.contentFingerprint ≠ fact.contentFingerprint ∧
    Overwritten exampleService sys fact fact' row := by
  have hrun : ((exec (System.step exampleService) initial correctionRun).bind fun sys =>
      (System.step exampleService sys (.advance 1 (.goes 0))).bind fun sys' =>
      (sys.store.facts.find "R-1").bind fun fact =>
      (sys'.store.facts.find "R-1").map fun fact' =>
        decide (fact'.contentFingerprint ≠ fact.contentFingerprint)) = some true := by
    decide +kernel
  obtain ⟨sys, hsys, hrun⟩ := Option.bind_eq_some_iff.mp hrun
  obtain ⟨sys', hsys', hrun⟩ := Option.bind_eq_some_iff.mp hrun
  obtain ⟨fact, hfact, hrun⟩ := Option.bind_eq_some_iff.mp hrun
  obtain ⟨fact', hfact', hrun⟩ := Option.map_eq_some_iff.mp hrun
  have hne := of_decide_eq_true hrun
  obtain ⟨fact₁, hfact₁, hcases⟩ := (live_fact_kept hsys hsys').1 "R-1" fact hfact
  rw [hfact'] at hfact₁
  cases hfact₁
  rcases hcases with rfl | ⟨row, hrow⟩
  · exact absurd rfl hne
  · exact ⟨sys, sys', fact, fact', row, hsys, hsys', hfact, hfact', hne, hrow⟩

end System

end CountyFlow.Memory
