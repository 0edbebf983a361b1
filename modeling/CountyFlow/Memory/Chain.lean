import CountyFlow.Memory.Bookkeeping

/-!
# One chain of versions per fact

Between the decision and the finalization of a mutation the lock of its fact may be lost, so two
calls may be about to write one fact.  The version the decision saw lets one of them through.
-/

namespace CountyFlow.Memory

open CountyFlow.Lib

/-! ### What happens to the facts -/

theorem CallState.effect_facts (s : Store) (st : CallState) : (st.effect s).facts = s.facts := by
  cases st with
  | working w specs error phase => cases phase <;> rfl
  | _ => rfl

theorem CallState.effect_mutations (s : Store) (st : CallState) (effect : Bool) :
    (if effect then st.effect s else s).mutations = s.mutations := by
  split
  · cases st with
    | working w specs error phase => cases phase <;> rfl
    | _ => rfl
  · rfl

variable {v : MutationService} {h : History} {w : Work} {row : Mutation}

theorem Work.after_eq (hdesc : w.Describes row) (hsound : row.Sound v h) :
    w.afterVersion = nextVersion w.beforeVersion := by
  obtain ⟨x, hx, hwrites⟩ := hdesc.decision
  obtain ⟨d, current, ⟨now, -, heval⟩, rfl, hbefore, hafter⟩ := hsound.decided x hx
  rcases evaluateMutation_cases heval with ⟨-, hw⟩ | ⟨hno, -⟩
  · have hsome := hw.after
    rw [← hafter, ← hbefore, hdesc.after, hdesc.before] at hsome
    exact Option.some.inj hsome
  · rw [hwrites] at hno
    cases hno

theorem Work.version_eq {current : Option Fact} (hafter : w.afterVersion = nextVersion w.beforeVersion)
    (hbefore : current.map Fact.version = w.beforeVersion) :
    w.version current = nextVersion w.beforeVersion := by
  cases current with
  | none =>
    have hnone : w.beforeVersion = none := hbefore.symm
    rw [hnone] at hafter ⊢
    show (if w.afterVersion = 0 then 1 else w.afterVersion) = 1
    rw [hafter]
    rfl
  | some fact =>
    rw [← hbefore]
    rfl

/-- What a step does to the facts and to the list of finalizations. -/
inductive CallState.FactMove (s : Store) (h : History) (st : CallState) (s' : Store) (h' : History) :
    Prop
  | same : s'.facts = s.facts → h'.finalizations = h.finalizations → FactMove s h st s' h'
  | reviewed {mutationId : ℕ} {c : MutationCommand} {factKey : String} (now : ℤ) :
      st = .reviewing mutationId c factKey → s.facts.find factKey = none →
      s'.facts = s.facts.upsert (.ofCommand c factKey 1 .pendingReview mutationId now) →
      h'.finalizations = h.finalizations → FactMove s h st s' h'
  | finalized {w : Work} {specs : List Projection} {error : Option String} {row : Mutation} (now : ℤ) :
      st = .working w specs error .finalizing → s.mutations.find w.mutationId = some row →
      w.Describes row → w.afterVersion = nextVersion w.beforeVersion →
      (s.facts.find w.factKey).map Fact.version = w.beforeVersion →
      s'.facts = s.facts.upsert
        (.ofCommand w.command w.factKey (nextVersion w.beforeVersion) .active w.mutationId now) →
      h'.finalizations = h.finalizations ++ [⟨w.mutationId, w.factKey, w.beforeVersion,
        .ofCommand w.command w.factKey (nextVersion w.beforeVersion) .active w.mutationId now⟩] →
      FactMove s h st s' h'

variable {s s' : Store} {now : ℤ} {st : CallState}

theorem History.finalizations_observe (hfacts : s'.facts = s.facts) :
    (h.observe v s s' now st).finalizations = h.finalizations := by
  unfold History.observe
  split
  · split <;> rfl
  · split
    · rename_i fact hfact
      rw [hfacts] at hfact
      rw [if_pos hfact]
    · rfl
  · rfl

/-- A statement changes a fact only at a review or at its finalization. -/
theorem CallState.step_factMove {st' : CallState}
    (hrows : ∀ i row, s.mutations.find i = some row → row.Sound v h) (hk : st.Knows v s h)
    (hstep : st.step v s now = some (s', st')) : st.FactMove s h s' (h.observe v s s' now st) := by
  have hsame : s'.facts = s.facts → st.FactMove s h s' (h.observe v s s' now st) :=
    fun hfacts => .same hfacts (History.finalizations_observe hfacts)
  cases step_effect hstep with
  | nothing => exact hsame rfl
  | begun hnew hadd => exact hsame rfl
  | decided hold => exact hsame rfl
  | noted =>
    refine hsame ?_
    unfold Store.appendEvidence
    split <;> rfl
  | reviewed now' hnone => exact .reviewed now' rfl hnone rfl rfl
  | marked hmark hold => exact hsame rfl
  | refinalized hold hfact hfin => exact hsame rfl
  | @wrote w specs error row now' hrow hnot hversion =>
    obtain ⟨row₀, hrow₀, hdesc⟩ := hk
    rw [hrow] at hrow₀
    cases hrow₀
    have hafter := Work.after_eq hdesc (hrows _ _ hrow)
    have hfact : w.fact (s.facts.find w.factKey) now' = .ofCommand w.command w.factKey
        (nextVersion w.beforeVersion) .active w.mutationId now' := by
      unfold Work.fact
      rw [Work.version_eq hafter hversion]
    refine .finalized now' rfl hrow hdesc hafter hversion (by rw [← hfact]; rfl) ?_
    have hfind : (s.writeFact row (w.fact (s.facts.find w.factKey) now')).facts.find w.factKey
        = some (w.fact (s.facts.find w.factKey) now') :=
      (Table.find_upsert _ _ _).trans (if_pos rfl)
    have hchanged : s.facts.find w.factKey ≠ some (w.fact (s.facts.find w.factKey) now') := by
      intro heq
      have hsame := hversion
      rw [heq, hfact] at hsame
      cases hbefore : w.beforeVersion with
      | none =>
        rw [hbefore] at hsame
        cases hsame
      | some before =>
        rw [hbefore] at hsame
        have : before + 1 = before := Option.some.inj hsame
        omega
    simp only [History.observe]
    rw [hfind]
    simp only
    rw [if_neg hchanged, hversion, hfact]
  | applied hold hstatus hfact hversion => exact hsame rfl
  | @projected w specs error phase =>
    refine hsame ?_
    cases phase <;> rfl

theorem CallState.advance_factMove {a : Answer} {st' : CallState}
    (hrows : ∀ i row, s.mutations.find i = some row → row.Sound v h) (hk : st.Knows v s h)
    (hstep : st.advance v s a = some (s', st')) : st.FactMove s h s' (h.record v s s' st a) := by
  cases a with
  | goes now => exact step_factMove hrows hk hstep
  | fails effect errorCode =>
    refine .same ?_ rfl
    cases st with
    | working w specs error phase =>
      cases phase with
      | staging | activating | retiring =>
        cases hstep
        split <;> rfl
      | _ => cases hstep
    | _ => cases hstep
  | raises effect =>
    refine .same ?_ rfl
    have hfacts : (if effect then st.effect s else s).facts = s.facts := by
      split
      · exact effect_facts s st
      · rfl
    cases st with
    | done => cases hstep
    | releasing =>
      cases hstep
      rfl
    | _ =>
      cases hstep
      exact hfacts

theorem CallState.factMove_if (s : Store) (h : History) (st : CallState) (effect : Bool) :
    st.FactMove s h (if effect then st.effect s else s) h := by
  refine .same ?_ rfl
  split
  · exact effect_facts s st
  · rfl

variable {h' : History} {factKey : String}

theorem CallState.FactMove.grows {fact : Fact} (hmove : st.FactMove s h s' h')
    (hfact : s.facts.find factKey = some fact) :
    ∃ fact', s'.facts.find factKey = some fact' ∧
      (fact' = fact ∨ fact.version < fact'.version) := by
  cases hmove with
  | same hfacts hfin =>
    rw [hfacts]
    exact ⟨fact, hfact, .inl rfl⟩
  | @reviewed mutationId c k now hst hnone hfacts hfin =>
    refine ⟨fact, ?_, .inl rfl⟩
    rw [hfacts, Table.find_upsert, if_neg]
    · exact hfact
    · intro hk
      have hk' : factKey = k := hk
      rw [hk', hnone] at hfact
      cases hfact
  | @finalized w specs error row now hst hrow hdesc hafter hbefore hfacts hfin =>
    rw [hfacts, Table.find_upsert]
    by_cases hk : factKey = w.factKey
    · refine ⟨_, if_pos hk, .inr ?_⟩
      have hversion : w.beforeVersion = some fact.version := by
        rw [← hbefore, ← hk, hfact]
        rfl
      show fact.version < nextVersion w.beforeVersion
      rw [hversion]
      exact Nat.lt_succ_self _
    · exact ⟨fact, (if_neg hk).trans hfact, .inl rfl⟩

/-! ### Paths of versions -/

variable {start stop : Option ℕ} {es : List Finalization} {e : Finalization}

namespace Finalization

/-- Each finalization starts at the version the one before it left, and goes one further. -/
def Path : Option ℕ → List Finalization → Option ℕ → Prop
  | start, [], stop => start = stop
  | start, e :: es, stop =>
    e.before = start ∧ e.fact.version = nextVersion start ∧ Path (some e.fact.version) es stop

theorem Path.snoc (h : Path start es stop) (hbefore : e.before = stop)
    (hversion : e.fact.version = nextVersion stop) : Path start (es ++ [e]) (some e.fact.version) := by
  induction es generalizing start with
  | nil =>
    have hstart : start = stop := h
    rw [hstart]
    exact ⟨hbefore, hversion, rfl⟩
  | cons a es ih => exact ⟨h.1, h.2.1, ih h.2.2⟩

theorem Path.lt : ∀ {n : ℕ} {stop : Option ℕ}, Path (some n) es stop →
    ∀ e ∈ es, n < e.fact.version := by
  induction es with
  | nil =>
    intro n stop h e he
    cases he
  | cons a es ih =>
    intro n stop h e he
    have ha : a.fact.version = n + 1 := h.2.1
    rcases List.mem_cons.mp he with rfl | he
    · omega
    · have := ih h.2.2 e he
      omega

theorem Path.pairwise (h : Path start es stop) : es.Pairwise fun a b => a.fact.version < b.fact.version := by
  induction es generalizing start with
  | nil => exact List.Pairwise.nil
  | cons a es ih => exact List.pairwise_cons.mpr ⟨h.2.2.lt, ih h.2.2⟩

/-- The mutation of a finalization decided for the two versions and proposed the fact. -/
structure MadeBy (s : Store) (e : Finalization) (row : Mutation) : Prop where
  found : s.mutations.find e.mutationId = some row
  factKey : row.factKey = e.factKey
  decision : ∃ x, row.decision = some x ∧ x.writes = true
  before : row.beforeVersion = e.before
  after : row.afterVersion = some e.fact.version
  version : e.fact.version = nextVersion e.before
  fact : ∃ now, e.fact =
    .ofCommand row.command e.factKey e.fact.version .active e.mutationId now

theorem MadeBy.mono (he : e.MadeBy s row) (heffect : st.Effect s s')
    (hk : st.Knows v s h) : ∃ row', e.MadeBy s' row' := by
  obtain ⟨x, hx, hwrites⟩ := he.decision
  obtain ⟨row', hrow', hcore⟩ := heffect.row_core hk he.found (.inl (by rw [hx]; simp))
  refine ⟨row', hrow', (Mutation.factKey_of_core hcore).trans he.factKey,
    ⟨x, (Mutation.decision_of_core hcore).trans hx, hwrites⟩,
    (Mutation.before_of_core hcore).trans he.before,
    (Mutation.after_of_core hcore).trans he.after, he.version, ?_⟩
  rw [Mutation.command_of_core hcore]
  exact he.fact

end Finalization

namespace System

def chain (sys : System) (factKey : String) : List Finalization :=
  sys.history.finalizations.filter fun e => e.factKey = factKey

/-- The finalizations of a fact lead from its creation, or from the version a pending review gave
it, to its present version, and the fact is what the last one left. -/
structure Chained (sys : System) (factKey : String) : Prop where
  path : ∃ start, (start = none ∨ start = some 1) ∧ Finalization.Path start (sys.chain factKey)
    ((sys.store.facts.find factKey).map Fact.version)
  last : ∀ e, (sys.chain factKey).getLast? = some e → sys.store.facts.find factKey = some e.fact
  pending : sys.chain factKey = [] → ∀ fact, sys.store.facts.find factKey = some fact →
    fact.status = .pendingReview ∧ fact.version = 1
  made : ∀ e ∈ sys.chain factKey, ∃ row, e.MadeBy sys.store row

theorem chained_initial (factKey : String) : Chained initial factKey where
  path := ⟨none, .inl rfl, rfl⟩
  last := fun e h => by cases h
  pending := fun _ fact h => by cases h
  made := fun e h => by cases h

/-- A fact that moves takes its chain along. -/
theorem Chained.of_factMove {sys : System} (hc : Chained sys factKey) {locks : String → Option ℕ}
    {calls : ℕ → Option CallState} (hmove : st.FactMove sys.store sys.history s' h')
    (hmade : ∀ (e : Finalization) row, e.MadeBy sys.store row → ∃ row', e.MadeBy s' row') :
    Chained ⟨s', locks, calls, h'⟩ factKey := by
  have hkeep : s'.facts.find factKey = sys.store.facts.find factKey →
      h'.finalizations.filter (fun e => e.factKey = factKey) = sys.chain factKey →
      Chained ⟨s', locks, calls, h'⟩ factKey := by
    intro hfact hchain
    have hchain' : chain ⟨s', locks, calls, h'⟩ factKey = sys.chain factKey := hchain
    refine ⟨?_, ?_, ?_, ?_⟩
    · rw [hchain']
      show ∃ start, _ ∧ Finalization.Path start _ ((s'.facts.find factKey).map Fact.version)
      rw [hfact]
      exact hc.path
    · intro e he
      rw [hchain'] at he
      exact hfact.trans (hc.last e he)
    · intro hnil fact hsome
      rw [hchain'] at hnil
      exact hc.pending hnil fact (hfact.symm.trans hsome)
    · intro e he
      rw [hchain'] at he
      obtain ⟨row, hrow⟩ := hc.made e he
      exact hmade e row hrow
  cases hmove with
  | same hfacts hfin =>
    refine hkeep (by rw [hfacts]) ?_
    rw [hfin]
    rfl
  | @reviewed mutationId c k now hst hnone hfacts hfin =>
    have hfind : s'.facts.find factKey
        = if factKey = k then some (.ofCommand c k 1 .pendingReview mutationId now)
          else sys.store.facts.find factKey := by
      rw [hfacts]
      exact Table.find_upsert _ _ _
    have hchain : h'.finalizations.filter (fun e => e.factKey = factKey) = sys.chain factKey := by
      rw [hfin]
      rfl
    by_cases hk : factKey = k
    · subst hk
      rw [if_pos rfl] at hfind
      -- a fact that is not there has no finalizations
      obtain ⟨start, hstart, hpath⟩ := hc.path
      rw [hnone] at hpath
      have hnil : sys.chain factKey = [] := by
        cases hl : (sys.chain factKey).getLast? with
        | none => exact List.getLast?_eq_none_iff.mp hl
        | some e =>
          have := hc.last e hl
          rw [hnone] at this
          cases this
      have hchain' : chain ⟨s', locks, calls, h'⟩ factKey = [] := hchain.trans hnil
      refine ⟨⟨some 1, .inr rfl, ?_⟩, ?_, ?_, ?_⟩
      · rw [hchain']
        show some 1 = (s'.facts.find factKey).map Fact.version
        rw [hfind]
        rfl
      · intro e he
        rw [hchain'] at he
        cases he
      · intro _ fact hsome
        have hsome' : s'.facts.find factKey = some fact := hsome
        rw [hfind] at hsome'
        rw [← Option.some.inj hsome']
        exact ⟨rfl, rfl⟩
      · intro e he
        rw [hchain'] at he
        cases he
    · rw [if_neg hk] at hfind
      exact hkeep hfind hchain
  | @finalized w specs error row now hst hrow hdesc hafter hbefore hfacts hfin =>
    obtain ⟨new, hnew⟩ : ∃ new : Finalization, new = ⟨w.mutationId, w.factKey, w.beforeVersion,
      .ofCommand w.command w.factKey (nextVersion w.beforeVersion) .active w.mutationId now⟩ :=
      ⟨_, rfl⟩
    rw [← hnew] at hfin
    have hfact : .ofCommand w.command w.factKey (nextVersion w.beforeVersion) .active w.mutationId
        now = new.fact := by rw [hnew]
    rw [hfact] at hfacts
    have hfind : s'.facts.find factKey
        = if factKey = w.factKey then some new.fact else sys.store.facts.find factKey := by
      rw [hfacts, Table.find_upsert]
      have hkey : new.fact.factKey = w.factKey := by rw [hnew]; rfl
      rw [hkey]
    by_cases hk : factKey = w.factKey
    · rw [if_pos hk] at hfind
      have hchain : chain ⟨s', locks, calls, h'⟩ factKey = sys.chain factKey ++ [new] := by
        show h'.finalizations.filter _ = _
        rw [hfin, List.filter_append]
        congr 1
        simp [hnew, hk]
      have hmadeBy : new.MadeBy sys.store row := by
        rw [hnew]
        refine ⟨hrow, hdesc.factKey, hdesc.decision, hdesc.before, ?_, rfl, now, ?_⟩
        · rw [hdesc.after, hafter]
          rfl
        · rw [hdesc.command]
          rfl
      refine ⟨?_, ?_, ?_, ?_⟩
      · obtain ⟨start, hstart, hpath⟩ := hc.path
        refine ⟨start, hstart, ?_⟩
        rw [hchain]
        show Finalization.Path start _ ((s'.facts.find factKey).map Fact.version)
        rw [hfind]
        refine hpath.snoc ?_ ?_
        · rw [hk, hbefore, hnew]
        · rw [hk, hbefore, hnew]
          rfl
      · intro e he
        rw [hchain, List.getLast?_concat] at he
        cases he
        exact hfind
      · intro hnil
        rw [hchain] at hnil
        exact absurd hnil (List.append_ne_nil_of_right_ne_nil _ (List.cons_ne_nil _ _))
      · intro e he
        rw [hchain] at he
        rcases List.mem_append.mp he with he | he
        · obtain ⟨row', hrow'⟩ := hc.made e he
          exact hmade e row' hrow'
        · obtain rfl := List.mem_singleton.mp he
          exact hmade e row hmadeBy
    · rw [if_neg hk] at hfind
      refine hkeep hfind ?_
      rw [hfin, List.filter_append]
      have hother : List.filter (fun e => decide (e.factKey = factKey)) [new] = [] := by
        simp [hnew, Ne.symm hk]
      rw [hother, List.append_nil]
      rfl

theorem Chained.step {sys sys' : System} {a : Action} (hs : Sound v sys) (hc : Chained sys factKey)
    (h : System.step v sys a = some sys') : Chained sys' factKey := by
  cases step_moves h with
  | quiet hquiet => exact ⟨hc.path, hc.last, hc.pending, hc.made⟩
  | advances hst hadv =>
    have hk := hs.knows _ _ hst
    exact hc.of_factMove (CallState.advance_factMove hs.rows hk hadv)
      fun e row he => he.mono (CallState.advance_effect hadv) hk
  | @crashes call effect st hst =>
    have hk := hs.knows _ _ hst
    exact hc.of_factMove (CallState.factMove_if sys.store sys.history st effect)
      fun e row he => he.mono (CallState.effect_if sys.store st effect) hk
  | expires => exact ⟨hc.path, hc.last, hc.pending, hc.made⟩

theorem chained_of_exec {sys : System} {acts : List Action} (h : exec (System.step v) initial acts = some sys)
    (factKey : String) : Chained sys factKey := by
  have hboth : Sound v sys ∧ Chained sys factKey :=
    exec_preserves (I := fun sys => Sound v sys ∧ Chained sys factKey)
      (fun _ _ _ hs hstep => ⟨hs.1.step hstep, hs.2.step hs.1 hstep⟩) h
      ⟨sound_initial v, chained_initial factKey⟩
  exact hboth.2

theorem changed_of_factMove (hmove : st.FactMove s h s' h')
    (hne : s'.facts.find factKey ≠ s.facts.find factKey) :
    (∃ e : Finalization, h'.finalizations = h.finalizations ++ [e] ∧ e.factKey = factKey ∧
        e.before = (s.facts.find factKey).map Fact.version ∧ s'.facts.find factKey = some e.fact) ∨
      (s.facts.find factKey = none ∧ ∃ fact, s'.facts.find factKey = some fact ∧
        fact.status = .pendingReview ∧ fact.version = 1) := by
  cases hmove with
  | same hfacts hfin => exact absurd (by rw [hfacts]) hne
  | @reviewed mutationId c k now hst hnone hfacts hfin =>
    rw [hfacts, Table.find_upsert] at hne ⊢
    by_cases hk : factKey = k
    · subst hk
      exact .inr ⟨hnone, _, if_pos rfl, rfl, rfl⟩
    · exact absurd (if_neg hk) hne
  | @finalized w specs error row now hst hrow hdesc hafter hbefore hfacts hfin =>
    rw [hfacts, Table.find_upsert] at hne ⊢
    by_cases hk : factKey = w.factKey
    · subst hk
      exact .inl ⟨_, hfin, rfl, hbefore.symm, if_pos rfl⟩
    · exact absurd (if_neg hk) hne

/-- **No lost updates.**  In every run, whatever locks expire and calls are cut off: the
finalizations of a fact are made each by its own mutation, from the version the mutation decided for
to the next; no two mutations finalize with one version; together they are a path without a gap from
the creation of the fact, or the version a pending review gave it, to its present version; the fact
is what the last one proposed; and a step that changes the fact is such a finalization, or creates
the fact for a review. -/
theorem no_lost_update {v : MutationService} {acts : List Action} {sys : System}
    (h : exec (System.step v) initial acts = some sys) (factKey : String) :
    (∀ e ∈ sys.chain factKey, ∃ row, e.MadeBy sys.store row) ∧
      ((sys.chain factKey).map Finalization.mutationId).Nodup ∧
      ((sys.chain factKey).map fun e => e.fact.version).Nodup ∧
      (∃ start, (start = none ∨ start = some 1) ∧ Finalization.Path start (sys.chain factKey)
        ((sys.store.facts.find factKey).map Fact.version)) ∧
      (∀ e, (sys.chain factKey).getLast? = some e →
        sys.store.facts.find factKey = some e.fact) ∧
      ∀ a sys', System.step v sys a = some sys' →
        sys'.store.facts.find factKey ≠ sys.store.facts.find factKey →
        (∃ e, sys'.chain factKey = sys.chain factKey ++ [e] ∧
          e.before = (sys.store.facts.find factKey).map Fact.version ∧
          sys'.store.facts.find factKey = some e.fact) ∨
        (sys.store.facts.find factKey = none ∧ ∃ fact, sys'.store.facts.find factKey = some fact ∧
          fact.status = .pendingReview ∧ fact.version = 1) := by
  have hs := sound_of_exec h
  have hc := chained_of_exec h factKey
  obtain ⟨start, hstart, hpath⟩ := hc.path
  have hpair := hpath.pairwise
  refine ⟨hc.made, ?_, ?_, hc.path, hc.last, ?_⟩
  · -- one mutation has one version, and the versions differ
    rw [List.Nodup, List.pairwise_map]
    refine hpair.imp_of_mem fun {a b} ha hb hlt hid => ?_
    obtain ⟨rowa, hrowa⟩ := hc.made a ha
    obtain ⟨rowb, hrowb⟩ := hc.made b hb
    have hsame := hrowa.found
    rw [hid, hrowb.found] at hsame
    cases hsame
    have hversion := hrowa.after
    rw [hrowb.after] at hversion
    have := Option.some.inj hversion
    omega
  · rw [List.Nodup, List.pairwise_map]
    exact hpair.imp fun hlt => Nat.ne_of_lt hlt
  · intro a sys' hstep hne
    cases step_moves hstep with
    | quiet hquiet => exact absurd rfl hne
    | @advances call answer st st' s' hst hadv =>
      have hmove := CallState.advance_factMove hs.rows (hs.knows _ _ hst) hadv
      rcases changed_of_factMove hmove hne with ⟨e, hfin, hkey, hbefore, hfact⟩ | hreview
      · refine .inl ⟨e, ?_, hbefore, hfact⟩
        show List.filter _ (sys.history.record v sys.store s' st answer).finalizations = _
        rw [hfin, List.filter_append]
        congr 1
        simp [hkey]
      · exact .inr hreview
    | @crashes call effect st hst =>
      refine absurd ?_ hne
      show (if effect then st.effect sys.store else sys.store).facts.find factKey = _
      split
      · rw [CallState.effect_facts]
      · rfl
    | expires => exact absurd rfl hne

end System

/-! ### Two calls about to create one fact -/

/-- A service with thresholds 0.8 and 0.1 that keys facts by their subject. -/
def exampleService : MutationService where
  policySettings := ⟨8 / 10, 1 / 10, by norm_num, by norm_num, by norm_num, by norm_num⟩
  digest := FactIdentity.subjectId

def exampleCommand (idempotencyKey value : String) (expectedVersion : Option ℕ) :
    MutationCommand where
  idempotencyKey := idempotencyKey
  category := .dispatch
  factKind := .attribute
  subjectType := "Route"
  subjectId := "R-1"
  predicate := "STATUS"
  valueJson := [("status", ⟨value, value, value⟩)]
  confidence := ⟨9, 1⟩
  incomingAt := 0
  sourceType := "REVIEW"
  sourceId := "S-1"
  operatorId := "O-1"
  humanConfirmed := true
  reason := "seen"
  targets := {.graph}
  objectType := none
  objectId := none
  expectedVersion := expectedVersion
  expiresAt := none
  evidenceText := some value
  evidenceRef := none
  evidenceObservedAt := none
  vectorMemoryId := none
  graphFactKey := none
  confidence_le := by norm_num [Decimal.value]

/-- So many steps of a call, all of which go through. -/
def goes (call n : ℕ) : List Action := List.replicate n (.advance call (.goes 0))

namespace System

/-- Both calls decide to create the fact: the second gets the lock when it expires. -/
def raceRun : List Action :=
  [.start 0 (.mutate (exampleCommand "K-1" "open" none))] ++ goes 0 6 ++
    [.expire "R-1", .start 1 (.mutate (exampleCommand "K-2" "closed" none))] ++ goes 1 11 ++
    goes 0 6

/-- The second call finalizes first, and the first one does not get through. -/
theorem no_lost_update_race : ∃ sys, exec (System.step exampleService) initial raceRun = some sys ∧
    ((sys.chain "R-1").map fun e => (e.mutationId, e.before, e.fact.version)) = [(1, none, 1)] ∧
    sys.store.facts.find "R-1" = ((sys.chain "R-1").getLast?).map Finalization.fact := by
  have hrun : ((exec (System.step exampleService) initial raceRun).map fun sys =>
      decide (((sys.chain "R-1").map fun e => (e.mutationId, e.before, e.fact.version))
        = [(1, none, 1)])) = some true := by decide +kernel
  obtain ⟨sys, hsys, hchain⟩ := Option.map_eq_some_iff.mp hrun
  have hone := of_decide_eq_true hchain
  refine ⟨sys, hsys, hone, ?_⟩
  cases hlast : (sys.chain "R-1").getLast? with
  | none =>
    rw [List.getLast?_eq_none_iff.mp hlast] at hone
    cases hone
  | some e => exact (no_lost_update hsys "R-1").2.2.2.2.1 e hlast

end System

end CountyFlow.Memory
