import Mathlib.Data.List.Perm.Basic
import Mathlib.Logic.Function.Basic

/-!
# Runs of a labelled transition function

A system is given by `step : σ → α → Option σ`: the state after an action, or `none` when the
action is not enabled.  Everything nondeterministic (who moves, what the outside world answers)
is part of the action, so a run is a list of actions and is executable.
-/

namespace CountyFlow.Lib

universe v

variable {σ α : Type*} {step : σ → α → Option σ} {ok : σ → α → Prop}

variable {ε β : Type*}

theorem toOption_eq_some {x : Except ε β} {b : β} : x.toOption = some b ↔ x = .ok b := by
  cases x <;> simp [Except.toOption]

variable {γ : Type v}

theorem bind_eq_ok {β : Type v} {x : Except ε β} {f : β → Except ε γ} {c : γ} :
    x >>= f = .ok c ↔ ∃ b, x = .ok b ∧ f b = .ok c := by
  cases x with
  | error e =>
    constructor
    · intro h
      cases h
    · rintro ⟨b, h, -⟩
      cases h
  | ok b =>
    constructor
    · intro h
      exact ⟨b, rfl, h⟩
    · rintro ⟨b', h, hf⟩
      cases h
      exact hf

variable {f : β → Except ε γ} {bs : List β} {cs : List γ}

theorem forall₂_of_mapM (h : bs.mapM f = .ok cs) : List.Forall₂ (fun b c => f b = .ok c) bs cs := by
  induction bs generalizing cs with
  | nil =>
    rw [List.mapM_nil] at h
    cases h
    exact .nil
  | cons b bs ih =>
    rw [List.mapM_cons] at h
    obtain ⟨c, hc, h⟩ := bind_eq_ok.mp h
    obtain ⟨cs', hcs, h⟩ := bind_eq_ok.mp h
    cases h
    exact .cons hc (ih hcs)

theorem mapM_of_forall₂ (h : List.Forall₂ (fun b c => f b = .ok c) bs cs) : bs.mapM f = .ok cs := by
  induction h with
  | nil => exact List.mapM_nil
  | cons hc _ ih =>
    rw [List.mapM_cons]
    exact bind_eq_ok.mpr ⟨_, hc, bind_eq_ok.mpr ⟨_, ih, rfl⟩⟩

theorem map_bind {β δ : Type v} (x : Except ε β) (f : β → Except ε γ) (g : γ → δ) :
    (x >>= f).map g = x >>= fun b => (f b).map g := by
  cases x with
  | error e => rfl
  | ok b => rfl

theorem map_mapM {δ : Type v} (f : β → Except ε γ) (g : γ → δ) (bs : List β) :
    (bs.mapM f).map (List.map g) = bs.mapM fun b => (f b).map g := by
  induction bs with
  | nil =>
    rw [List.mapM_nil, List.mapM_nil]
    rfl
  | cons b bs ih =>
    rw [List.mapM_cons, List.mapM_cons, ← ih]
    cases f b with
    | error e => rfl
    | ok c =>
      cases bs.mapM f with
      | error e => rfl
      | ok cs => rfl

theorem mapM_perm {bs' : List β} (hperm : bs'.Perm bs) (h : bs.mapM f = .ok cs) :
    ∃ cs', bs'.mapM f = .ok cs' ∧ cs'.Perm cs := by
  obtain ⟨cs', hcs', hperm'⟩ := List.perm_comp_forall₂ hperm (forall₂_of_mapM h)
  exact ⟨cs', mapM_of_forall₂ hcs', hperm'⟩

theorem exists_of_forall₂ {γ : Type*} {R : β → γ → Prop} {cs : List γ} (h : List.Forall₂ R bs cs) {c : γ}
    (hc : c ∈ cs) : ∃ b ∈ bs, R b c := by
  induction h with
  | nil => cases hc
  | cons hbc _ ih =>
    rcases List.mem_cons.mp hc with rfl | hrest
    · exact ⟨_, List.mem_cons_self .., hbc⟩
    · obtain ⟨b, hb, hR⟩ := ih hrest
      exact ⟨b, List.mem_cons_of_mem _ hb, hR⟩

theorem exists_mapM_eq_ok : (∃ cs, bs.mapM f = .ok cs) ↔ ∀ b ∈ bs, ∃ c, f b = .ok c := by
  induction bs with
  | nil => exact ⟨fun _ b hb => absurd hb List.not_mem_nil, fun _ => ⟨[], List.mapM_nil⟩⟩
  | cons b bs ih =>
    rw [List.forall_mem_cons, ← ih, List.mapM_cons]
    constructor
    · rintro ⟨cs, h⟩
      obtain ⟨c, hc, h⟩ := bind_eq_ok.mp h
      obtain ⟨cs', hcs, -⟩ := bind_eq_ok.mp h
      exact ⟨⟨c, hc⟩, cs', hcs⟩
    · rintro ⟨⟨c, hc⟩, cs, hcs⟩
      exact ⟨c :: cs, bind_eq_ok.mpr ⟨c, hc, bind_eq_ok.mpr ⟨cs, hcs, rfl⟩⟩⟩

theorem mem_of_mapM (h : bs.mapM f = .ok cs) {c : γ} : c ∈ cs ↔ ∃ b ∈ bs, f b = .ok c := by
  constructor
  · intro hc
    exact exists_of_forall₂ (forall₂_of_mapM h) hc
  · rintro ⟨b, hb, hbc⟩
    induction bs generalizing cs with
    | nil => cases hb
    | cons b' bs ih =>
      rw [List.mapM_cons] at h
      obtain ⟨c', hc', h⟩ := bind_eq_ok.mp h
      obtain ⟨cs', hcs, h⟩ := bind_eq_ok.mp h
      cases h
      rcases List.mem_cons.mp hb with rfl | hrest
      · rw [hbc] at hc'
        cases hc'
        exact List.mem_cons_self
      · exact List.mem_cons_of_mem _ (ih hcs hrest)

/-- The state a run ends in, `none` if one of its actions is not enabled. -/
def exec (step : σ → α → Option σ) : σ → List α → Option σ
  | s, [] => some s
  | s, a :: as => (step s a).bind fun s' => exec step s' as

/-- Every action of the run is taken in a state where `ok` holds of the state and the action. -/
def Meets (step : σ → α → Option σ) (ok : σ → α → Prop) : σ → List α → Prop
  | _, [] => True
  | s, a :: as => ok s a ∧ ∀ s', step s a = some s' → Meets step ok s' as

/-- A decidable condition is decided along a run by running it. -/
instance Meets.decidable [∀ s a, Decidable (ok s a)] :
    (s : σ) → (as : List α) → Decidable (Meets step ok s as)
  | _, [] => isTrue trivial
  | s, a :: as =>
    match h : step s a with
    | none => decidable_of_iff (ok s a)
        ⟨fun hok => ⟨hok, fun s' hs => by rw [h] at hs; cases hs⟩, fun hm => hm.1⟩
    | some s' =>
      have := Meets.decidable s' as
      decidable_of_iff (ok s a ∧ Meets step ok s' as)
        ⟨fun hm => ⟨hm.1, fun t ht => by rw [h] at ht; cases ht; exact hm.2⟩,
          fun hm => ⟨hm.1, hm.2 s' h⟩⟩

@[simp] theorem exec_nil (s : σ) : exec step s [] = some s := rfl

theorem exec_cons (s : σ) (a : α) (as : List α) :
    exec step s (a :: as) = (step s a).bind fun s' => exec step s' as := rfl

variable {as : List α}

theorem exec_cons_eq_some {s s' : σ} {a : α} :
    exec step s (a :: as) = some s' ↔ ∃ m, step s a = some m ∧ exec step m as = some s' := by
  rw [exec_cons, Option.bind_eq_some_iff]

theorem exec_append (s : σ) (as bs : List α) :
    exec step s (as ++ bs) = (exec step s as).bind fun m => exec step m bs := by
  induction as generalizing s with
  | nil => rfl
  | cons a as ih =>
    rw [List.cons_append, exec_cons, exec_cons, Option.bind_assoc]
    congr 1
    funext m
    exact ih m

theorem exec_append_eq_some {s s' : σ} {bs : List α} :
    exec step s (as ++ bs) = some s' ↔ ∃ m, exec step s as = some m ∧ exec step m bs = some s' := by
  rw [exec_append, Option.bind_eq_some_iff]

theorem meets_append {s : σ} {bs : List α} :
    Meets step ok s (as ++ bs) ↔
      Meets step ok s as ∧ ∀ m, exec step s as = some m → Meets step ok m bs := by
  induction as generalizing s with
  | nil => simp [Meets]
  | cons a as ih =>
    simp only [List.cons_append, Meets, ih, exec_cons_eq_some]
    constructor
    · rintro ⟨h, hrest⟩
      exact ⟨⟨h, fun m hm => (hrest m hm).1⟩, fun m ⟨k, hk, hm⟩ => (hrest k hk).2 m hm⟩
    · rintro ⟨⟨h, hpre⟩, hpost⟩
      exact ⟨h, fun k hk => ⟨hpre k hk, fun m hm => hpost m ⟨k, hk, hm⟩⟩⟩

theorem meets_of_forall (h : ∀ s a, ok s a) (s : σ) (as : List α) : Meets step ok s as := by
  induction as generalizing s with
  | nil => trivial
  | cons a as ih => exact ⟨h s a, fun s' _ => ih s'⟩

theorem meets_of_mem {ok' : α → Prop} (h : ∀ a ∈ as, ok' a) (s : σ) : Meets step (fun _ a => ok' a) s as := by
  induction as generalizing s with
  | nil => trivial
  | cons a as ih =>
    exact ⟨h a List.mem_cons_self, fun s' _ => ih (fun b hb => h b (List.mem_cons_of_mem a hb)) s'⟩

theorem Meets.and {ok' : σ → α → Prop} {s : σ} (h : Meets step ok s as) (h' : Meets step ok' s as) :
    Meets step (fun s a => ok s a ∧ ok' s a) s as := by
  induction as generalizing s with
  | nil => trivial
  | cons a as ih => exact ⟨⟨h.1, h'.1⟩, fun s' hs => ih (h.2 s' hs) (h'.2 s' hs)⟩

theorem Meets.mono {ok' : σ → α → Prop} (h : ∀ s a, ok s a → ok' s a) {s : σ} (hm : Meets step ok s as) :
    Meets step ok' s as := by
  induction as generalizing s with
  | nil => trivial
  | cons a as ih => exact ⟨h s a hm.1, fun s' hs => ih (hm.2 s' hs)⟩

/-- **The invariant rule.**  What every admitted step preserves, every admitted run preserves. -/
theorem exec_invariant {I : σ → Prop} (hstep : ∀ s a s', I s → ok s a → step s a = some s' → I s') {s s' : σ}
    (hok : Meets step ok s as) (hrun : exec step s as = some s') (hI : I s) : I s' := by
  induction as generalizing s with
  | nil =>
    rw [exec_nil, Option.some.injEq] at hrun
    exact hrun ▸ hI
  | cons a as ih =>
    obtain ⟨m, hm, hrest⟩ := exec_cons_eq_some.mp hrun
    exact ih (hok.2 m hm) hrest (hstep s a m hI hok.1 hm)

theorem exec_preserves {I : σ → Prop} (hstep : ∀ s a s', I s → step s a = some s' → I s') {s s' : σ}
    (hrun : exec step s as = some s') (hI : I s) : I s' :=
  exec_invariant (fun s a s' h (_ : True) => hstep s a s' h)
    (meets_of_forall (fun _ _ => trivial) s as) hrun hI

theorem Meets.mono_of_invariant {I : σ → Prop} {ok' : σ → α → Prop}
    (hstep : ∀ s a s', I s → ok s a → step s a = some s' → I s') (h : ∀ s a, I s → ok s a → ok' s a) {s : σ}
    (hI : I s) (hm : Meets step ok s as) : Meets step ok' s as := by
  induction as generalizing s with
  | nil => trivial
  | cons a as ih =>
    exact ⟨h s a hI hm.1, fun s' hs => ih (hstep s a s' hI hm.1 hs) (hm.2 s' hs)⟩

/-- **The exact rule.**  Where a condition on a step holds exactly when the step has a property, the
condition holds along a run exactly when every step of the run has the property. -/
theorem meets_iff_of_step {I : σ → Prop} {Q : σ → α → σ → Prop}
    (hinv : ∀ s a s', I s → Q s a s' → step s a = some s' → I s')
    (hstep : ∀ s a s', I s → step s a = some s' → (ok s a ↔ Q s a s')) {s s' : σ}
    (hrun : exec step s as = some s') (hI : I s) :
    Meets step ok s as ↔ Meets step (fun s a => ∀ s', step s a = some s' → Q s a s') s as := by
  induction as generalizing s with
  | nil => exact Iff.rfl
  | cons a as ih =>
    obtain ⟨k, hk, hrest⟩ := exec_cons_eq_some.mp hrun
    have hnext (hQ : Q s a k) := ih hrest (hinv s a k hI hQ hk)
    constructor
    · rintro ⟨hok, htail⟩
      have hQ : Q s a k := (hstep s a k hI hk).mp hok
      refine ⟨fun m hm => (hstep s a m hI hm).mp hok, fun m hm => ?_⟩
      obtain rfl := Option.some.inj (hk.symm.trans hm)
      exact (hnext hQ).mp (htail k hk)
    · rintro ⟨hQ, htail⟩
      refine ⟨(hstep s a k hI hk).mpr (hQ k hk), fun m hm => ?_⟩
      obtain rfl := Option.some.inj (hk.symm.trans hm)
      exact (hnext (hQ k hk)).mpr (htail k hk)

theorem meets_next_iff {P : σ → Prop} {s : σ} (hP : P s) :
    Meets step (fun s a => ∀ s', step s a = some s' → P s') s as ↔
      ∀ pre m, pre <+: as → exec step s pre = some m → P m := by
  induction as generalizing s with
  | nil =>
    refine ⟨fun _ pre m hpre hm => ?_, fun _ => trivial⟩
    rw [List.prefix_nil.mp hpre, exec_nil, Option.some.injEq] at hm
    exact hm ▸ hP
  | cons a as ih =>
    constructor
    · rintro ⟨hnext, htail⟩ pre m hpre hm
      rcases List.prefix_cons_iff.mp hpre with rfl | ⟨pre', rfl, hpre'⟩
      · rw [exec_nil, Option.some.injEq] at hm
        exact hm ▸ hP
      · obtain ⟨k, hk, hm'⟩ := exec_cons_eq_some.mp hm
        exact (ih (hnext k hk)).mp (htail k hk) pre' m hpre' hm'
    · intro hall
      have hnext : ∀ k, step s a = some k → P k := by
        intro k hk
        apply hall [a] k
        · simp
        · simp [exec_cons, hk]
      refine ⟨hnext, fun k hk => (ih (hnext k hk)).mpr fun pre m hpre hm => ?_⟩
      apply hall (a :: pre) m
      · simpa using hpre
      · rw [exec_cons, hk]
        exact hm

theorem meets_iff_throughout {I P : σ → Prop} (hinv : ∀ s a s', I s → step s a = some s' → I s')
    (hstep : ∀ s a s', I s → P s → step s a = some s' → (ok s a ↔ P s')) {s s' : σ}
    (hrun : exec step s as = some s') (hI : I s) (hP : P s) :
    Meets step ok s as ↔ ∀ pre m, pre <+: as → exec step s pre = some m → P m := by
  rw [← meets_next_iff hP]
  apply meets_iff_of_step (I := fun s => I s ∧ P s) (Q := fun _ _ s' => P s') _ _ hrun ⟨hI, hP⟩
  · intro s a s' hs hP' h
    exact ⟨hinv s a s' hs.1 h, hP'⟩
  · intro s a s' hs h
    exact hstep s a s' hs.1 hs.2 h

/-- **The two-state rule.**  A reflexive and transitive relation that every step of states
satisfying an invariant respects relates the ends of every run. -/
theorem exec_relation {I : σ → Prop} {R : σ → σ → Prop} (hrefl : ∀ s, R s s)
    (htrans : ∀ a b c, R a b → R b c → R a c) (hinv : ∀ s a s', I s → ok s a → step s a = some s' → I s')
    (hrel : ∀ s a s', I s → ok s a → step s a = some s' → R s s') {s s' : σ} (hok : Meets step ok s as)
    (hrun : exec step s as = some s') (hI : I s) : R s s' := by
  induction as generalizing s with
  | nil =>
    rw [exec_nil, Option.some.injEq] at hrun
    exact hrun ▸ hrefl s
  | cons a as ih =>
    obtain ⟨m, hm, hrest⟩ := exec_cons_eq_some.mp hrun
    exact htrans s m s' (hrel s a m hI hok.1 hm)
      (ih (hok.2 m hm) hrest (hinv s a m hI hok.1 hm))

end CountyFlow.Lib
