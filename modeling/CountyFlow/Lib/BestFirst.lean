import Mathlib.Data.List.Perm.Subperm
import CountyFlow.Lib.Search

/-!
# A best-first search ends with the best

The keys of a space may be any linear order.  They have to grow along successors, the queue has to compare
entries by their keys first, and an entry with a better key has to have successors that are as good: sums of
weights are one example, sums with the path itself to break ties are another.
-/

namespace CountyFlow.Lib.Space

open Function

variable {ν κ τ β : Type*} [LinearOrder κ]

/-- The entries that satisfy `P` lead to such entries, along which the keys grow; the rank of an entry
goes by its key first. -/
structure Graded [LinearOrder τ] (S : Space ν κ τ β) (P : β → Prop) : Prop where
  next : ∀ b, P b → ∀ c ∈ S.successors b, P c
  grows : ∀ b, P b → ∀ c ∈ S.successors b, S.key b < S.key c
  ranked : ∀ a b, S.key a < S.key b → S.rank a < S.rank b

/-- What a better entry of a node leads to is as good. -/
def Exchanges (S : Space ν κ τ β) (P : β → Prop) : Prop :=
  ∀ a b, P a → P b → S.node a = S.node b → S.key a ≤ S.key b →
    ∀ c ∈ S.successors b, ∃ d ∈ S.successors a, S.node d = S.node c ∧ S.key d ≤ S.key c

inductive Reached (S : Space ν κ τ β) (b₀ : β) : β → Prop
  | start : Reached S b₀ b₀
  | next {b c : β} : Reached S b₀ b → c ∈ S.successors b → Reached S b₀ c

/-- The node of an entry has seen a key that is as good. -/
def Covered (S : Space ν κ τ β) (f : Frontier ν κ β) (b : β) : Prop :=
  ∃ k ∈ f.best (S.node b), k ≤ S.key b

/-- A frontier in which every best key has become as good. -/
def Improves (f f' : Frontier ν κ β) : Prop := ∀ v, ∀ k ∈ f.best v, ∃ k' ∈ f'.best v, k' ≤ k

theorem Improves.refl (f : Frontier ν κ β) : Improves f f := fun _ k hk => ⟨k, hk, le_rfl⟩

variable {f : Frontier ν κ β}

theorem Improves.trans {g h : Frontier ν κ β} (hfg : Improves f g) (hgh : Improves g h) : Improves f h := by
  intro v k hk
  obtain ⟨k', hk', hle⟩ := hfg v k hk
  obtain ⟨k'', hk'', hle'⟩ := hgh v k' hk'
  exact ⟨k'', hk'', hle'.trans hle⟩

variable {b : β}

theorem Covered.improve {S : Space ν κ τ β} {f' : Frontier ν κ β} (h : S.Covered f b)
    (himproves : Improves f f') : S.Covered f' b := by
  obtain ⟨k, hk, hle⟩ := h
  obtain ⟨k', hk', hle'⟩ := himproves _ k hk
  exact ⟨k', hk', hle'.trans hle⟩

variable [DecidableEq ν] [LinearOrder τ] {S : Space ν κ τ β} {P : β → Prop} {goal : ν} {b₀ : β}

/-! ### One entry joins the queue -/

theorem relax_of_covered (h : S.Covered f b) : S.relax f b = f := if_pos h

theorem relax_of_not_covered (h : ¬ S.Covered f b) :
    S.relax f b = { f with
      queue := f.queue.orderedInsert (fun x y => S.rank x ≤ S.rank y) b
      best := update f.best (S.node b) (some (S.key b)) } := if_neg h

theorem relax_improves (f : Frontier ν κ β) (b : β) : Improves f (S.relax f b) := by
  by_cases h : S.Covered f b
  · rw [relax_of_covered h]
    exact Improves.refl f
  · rw [relax_of_not_covered h]
    intro v k hk
    by_cases hv : v = S.node b
    · subst hv
      refine ⟨S.key b, by simp, le_of_not_ge fun hge => h ⟨k, hk, hge⟩⟩
    · exact ⟨k, by simpa [update_of_ne hv] using hk, le_rfl⟩

theorem covered_relax (f : Frontier ν κ β) (b : β) : S.Covered (S.relax f b) b := by
  by_cases h : S.Covered f b
  · rw [relax_of_covered h]
    exact h
  · rw [relax_of_not_covered h]
    exact ⟨S.key b, by simp, le_rfl⟩

variable {x : β}

theorem mem_queue_relax (h : x ∈ f.queue) : x ∈ (S.relax f b).queue := by
  by_cases hb : S.Covered f b
  · rw [relax_of_covered hb]
    exact h
  · rw [relax_of_not_covered hb]
    exact (List.mem_orderedInsert _).mpr (.inr h)

variable {v : ν} {k : κ}

theorem best_relax (h : (S.relax f b).best v = some k) :
    f.best v = some k ∨ S.node b = v ∧ S.key b = k ∧ b ∈ (S.relax f b).queue := by
  by_cases hb : S.Covered f b
  · rw [relax_of_covered hb] at h
    exact .inl h
  · rw [relax_of_not_covered hb] at h ⊢
    by_cases hv : v = S.node b
    · subst hv
      have hk : S.key b = k := by simpa using h
      exact .inr ⟨rfl, hk, (List.mem_orderedInsert _).mpr (.inl rfl)⟩
    · exact .inl (by simpa [update_of_ne hv] using h)

/-! ### All successors join the queue -/

theorem foldl_improves (bs : List β) (f : Frontier ν κ β) : Improves f (bs.foldl S.relax f) := by
  induction bs generalizing f with
  | nil => exact Improves.refl f
  | cons b bs ih => exact (relax_improves f b).trans (ih _)

variable {bs : List β}

theorem covered_foldl (hb : b ∈ bs) (f : Frontier ν κ β) : S.Covered (bs.foldl S.relax f) b := by
  induction bs generalizing f with
  | nil => cases hb
  | cons b' bs ih =>
    rcases List.mem_cons.mp hb with rfl | hin
    · exact (covered_relax f b).improve (foldl_improves bs _)
    · exact ih hin _

theorem mem_queue_foldl (h : x ∈ f.queue) : x ∈ (bs.foldl S.relax f).queue := by
  induction bs generalizing f with
  | nil => exact h
  | cons b bs ih => exact ih (mem_queue_relax h)

theorem best_foldl (h : (bs.foldl S.relax f).best v = some k) :
    f.best v = some k ∨ ∃ b ∈ bs, S.node b = v ∧ S.key b = k ∧ b ∈ (bs.foldl S.relax f).queue := by
  induction bs generalizing f with
  | nil => exact .inl h
  | cons b bs ih =>
    rcases ih h with hold | ⟨c, hc, hnode, hkey, hqueue⟩
    · rcases best_relax hold with hold | ⟨hnode, hkey, hqueue⟩
      · exact .inl hold
      · have hin : b ∈ (bs.foldl S.relax (S.relax f b)).queue := mem_queue_foldl hqueue
        exact .inr ⟨b, List.mem_cons_self .., hnode, hkey, hin⟩
    · exact .inr ⟨c, List.mem_cons_of_mem _ hc, hnode, hkey, hqueue⟩

/-! ### The invariant -/

/-- The queue is ordered, what is in it is covered, and no two of its entries are the same label. -/
structure Ordered (S : Space ν κ τ β) (f : Frontier ν κ β) : Prop where
  sorted : f.queue.Pairwise fun x y => S.rank x ≤ S.rank y
  covered : ∀ x ∈ f.queue, S.Covered f x
  distinct : f.queue.Pairwise fun x y => S.node x = S.node y → S.key x ≠ S.key y

theorem Ordered.relax (h : S.Ordered f) (b : β) : S.Ordered (S.relax f b) := by
  by_cases hb : S.Covered f b
  · rw [relax_of_covered hb]
    exact h
  · have himproves := relax_improves (S := S) f b
    have hcovered := covered_relax (S := S) f b
    rw [relax_of_not_covered hb] at himproves hcovered ⊢
    have hperm : (f.queue.orderedInsert (fun x y => S.rank x ≤ S.rank y) b).Perm (b :: f.queue) :=
      List.perm_orderedInsert _ b f.queue
    refine ⟨?_, fun x hx => ?_, ?_⟩
    · have : Std.Total fun x y => S.rank x ≤ S.rank y := ⟨fun x y => le_total _ _⟩
      have : IsTrans β fun x y => S.rank x ≤ S.rank y := ⟨fun x y z => le_trans⟩
      exact h.sorted.orderedInsert b f.queue
    · rcases (List.mem_orderedInsert _).mp hx with rfl | hold
      · exact hcovered
      · exact (h.covered x hold).improve himproves
    · have hsymm : ∀ x y, (S.node x = S.node y → S.key x ≠ S.key y) →
          S.node y = S.node x → S.key y ≠ S.key x :=
        fun x y hxy hnode hkey => hxy hnode.symm hkey.symm
      rw [hperm.pairwise_iff (fun {x y} => hsymm x y)]
      refine List.pairwise_cons.mpr ⟨fun x hx hnode hkey => hb ?_, h.distinct⟩
      obtain ⟨k, hk, hle⟩ := h.covered x hx
      exact ⟨k, hnode ▸ hk, hkey ▸ hle⟩

theorem Ordered.foldl (h : S.Ordered f) : S.Ordered (bs.foldl S.relax f) := by
  induction bs generalizing f with
  | nil => exact h
  | cons b bs ih => exact ih (h.relax b)

/-- The nodes that are done have a key that is not above `low`, and no entry of the queue is below it or
improves on them. -/
structure Closed (S : Space ν κ τ β) (f : Frontier ν κ β) (done : List ν) (low : κ) : Prop where
  above : ∀ x ∈ f.queue, low ≤ S.key x
  settled : ∀ v ∈ done, ∃ k, f.best v = some k ∧ k ≤ low ∧ ∀ x ∈ f.queue, S.node x = v → k < S.key x

variable {done : List ν}

variable {low : κ}

theorem Closed.relax (h : S.Closed f done low) (hb : low ≤ S.key b) : S.Closed (S.relax f b) done low := by
  by_cases hcovered : S.Covered f b
  · rw [relax_of_covered hcovered]
    exact h
  · rw [relax_of_not_covered hcovered]
    refine ⟨fun x hx => ?_, fun v hv => ?_⟩
    · rcases (List.mem_orderedInsert _).mp hx with rfl | hold
      · exact hb
      · exact h.above x hold
    · obtain ⟨k, hk, hlow, hqueue⟩ := h.settled v hv
      have hne : v ≠ S.node b := by
        intro heq
        subst heq
        exact hcovered ⟨k, hk, hlow.trans hb⟩
      refine ⟨k, by rw [← hk]; exact update_of_ne hne _ _, hlow, fun x hx hnode => ?_⟩
      rcases (List.mem_orderedInsert _).mp hx with rfl | hold
      · exact absurd hnode.symm hne
      · exact hqueue x hold hnode

theorem Closed.foldl (h : S.Closed f done low) (hbs : ∀ b ∈ bs, low ≤ S.key b) :
    S.Closed (bs.foldl S.relax f) done low := by
  induction bs generalizing f with
  | nil => exact h
  | cons b bs ih =>
    exact ih (h.relax (hbs b (List.mem_cons_self ..))) fun c hc => hbs c (List.mem_cons_of_mem _ hc)

/-- An entry has handed its successors to the frontier, and is not at the goal. -/
def Expanded (S : Space ν κ τ β) (goal : ν) (f : Frontier ν κ β) (b : β) : Prop :=
  S.node b ≠ goal ∧ ∀ c ∈ S.successors b, S.Covered f c

/-- **What is known of the frontier between two rounds**, after the nodes `done` have been visited.  Every
best key is that of an entry that waits in the queue or has been expanded. -/
structure Searching (S : Space ν κ τ β) (P : β → Prop) (goal : ν) (b₀ : β) (f : Frontier ν κ β)
    (done : List ν) (low : κ) : Prop where
  entries : ∀ x ∈ f.queue, P x
  ordered : S.Ordered f
  closed : S.Closed f done low
  nodup : done.Nodup
  labelled : ∀ v k, f.best v = some k →
    ∃ b, P b ∧ S.node b = v ∧ S.key b = k ∧ (b ∈ f.queue ∨ S.Expanded goal f b)
  started : S.Covered f b₀

variable {rest : List β}

omit [DecidableEq ν] in
theorem Searching.key_le (hgraded : S.Graded P) (h : S.Searching P goal b₀ f done low)
    (hqueue : f.queue = b :: rest) (hx : x ∈ f.queue) : S.key b ≤ S.key x := by
  rw [hqueue] at hx
  rcases List.mem_cons.mp hx with rfl | hrest
  · exact le_rfl
  · have hsorted := h.ordered.sorted
    rw [hqueue] at hsorted
    have hrank : S.rank b ≤ S.rank x := List.rel_of_pairwise_cons hsorted hrest
    exact le_of_not_gt fun hlt => absurd (hgraded.ranked x b hlt) (not_lt.mpr hrank)

omit [DecidableEq ν] in
theorem Ordered.tail (h : S.Ordered f) (hqueue : f.queue = b :: rest) (n : ℕ) :
    S.Ordered { f with queue := rest, visited := n } := by
  obtain ⟨hsorted, hcovered, hdistinct⟩ := h
  rw [hqueue] at hsorted hcovered hdistinct
  exact ⟨hsorted.of_cons, fun x hx => hcovered x (List.mem_cons_of_mem _ hx), hdistinct.of_cons⟩

omit [DecidableEq ν] in
/-- **A stale entry is dropped.** -/
theorem Searching.drop (h : S.Searching P goal b₀ f done low) (hqueue : f.queue = b :: rest)
    (hstale : f.best (S.node b) ≠ some (S.key b)) :
    S.Searching P goal b₀ { f with queue := rest } done low := by
  have hmem {x : β} (hx : x ∈ rest) : x ∈ f.queue := by
    rw [hqueue]
    exact List.mem_cons_of_mem _ hx
  refine ⟨fun x hx => h.entries x (hmem hx), h.ordered.tail hqueue f.visited,
    ⟨fun x hx => h.closed.above x (hmem hx), fun v hv => ?_⟩, h.nodup, fun v k hk => ?_, h.started⟩
  · obtain ⟨k, hk, hlow, hless⟩ := h.closed.settled v hv
    exact ⟨k, hk, hlow, fun x hx => hless x (hmem hx)⟩
  · obtain ⟨x, hx, rfl, rfl, hwaits | hexpanded⟩ := h.labelled v k hk
    · rw [hqueue] at hwaits
      rcases List.mem_cons.mp hwaits with rfl | hrest
      · exact absurd hk hstale
      · exact ⟨x, hx, rfl, rfl, .inl hrest⟩
    · exact ⟨x, hx, rfl, rfl, .inr hexpanded⟩

/-- **A fresh entry that is not at the goal is expanded**, and its node had not been visited. -/
theorem Searching.expand (hgraded : S.Graded P) (h : S.Searching P goal b₀ f done low)
    (hqueue : f.queue = b :: rest) (hfresh : f.best (S.node b) = some (S.key b)) (hgoal : S.node b ≠ goal) :
    S.Searching P goal b₀ ((S.successors b).foldl S.relax
      { f with queue := rest, visited := f.visited + 1 }) (S.node b :: done) (S.key b) := by
  have hhead : b ∈ f.queue := by
    rw [hqueue]
    exact List.mem_cons_self ..
  have hmem {x : β} (hx : x ∈ rest) : x ∈ f.queue := by
    rw [hqueue]
    exact List.mem_cons_of_mem _ hx
  have hb := h.entries b hhead
  have hlow : low ≤ S.key b := h.closed.above b hhead
  have himproves := foldl_improves (S := S) (S.successors b)
    { f with queue := rest, visited := f.visited + 1 }
  refine ⟨fun x hx => ?_, (h.ordered.tail hqueue _).foldl, Closed.foldl ⟨fun x hx => ?_, fun v hv => ?_⟩
    (fun c hc => (hgraded.grows b hb c hc).le), List.nodup_cons.mpr ⟨fun hdone => ?_, h.nodup⟩,
    fun v k hk => ?_, h.started.improve himproves⟩
  · rcases mem_foldl_relax hx with hin | hin
    · exact hgraded.next b hb x hin
    · exact h.entries x (hmem hin)
  · exact h.key_le hgraded hqueue (hmem hx)
  · rcases List.mem_cons.mp hv with rfl | hold
    · -- another entry of the node that is visited has another key, and so a greater one
      refine ⟨S.key b, hfresh, le_rfl, fun x hx hnode => ?_⟩
      have hdistinct := h.ordered.distinct
      rw [hqueue] at hdistinct
      have hne := List.rel_of_pairwise_cons hdistinct hx hnode.symm
      exact lt_of_le_of_ne (h.key_le hgraded hqueue (hmem hx)) hne
    · obtain ⟨k, hk, hle, hless⟩ := h.closed.settled v hold
      exact ⟨k, hk, hle.trans hlow, fun x hx => hless x (hmem hx)⟩
  · obtain ⟨k, hk, -, hless⟩ := h.closed.settled _ hdone
    have hlt := hless b hhead rfl
    rw [hfresh] at hk
    exact absurd (Option.some.inj hk) hlt.ne'
  · rcases best_foldl hk with hold | ⟨c, hc, hnode, hkey, hwaits⟩
    · obtain ⟨x, hx, hnode, hkey, hwaits | hexpanded⟩ := h.labelled v k hold
      · rw [hqueue] at hwaits
        rcases List.mem_cons.mp hwaits with rfl | hrest
        · exact ⟨x, hx, hnode, hkey, .inr ⟨hgoal, fun c hc => covered_foldl hc _⟩⟩
        · exact ⟨x, hx, hnode, hkey, .inl (mem_queue_foldl hrest)⟩
      · exact ⟨x, hx, hnode, hkey,
          .inr ⟨hexpanded.1, fun c hc => (hexpanded.2 c hc).improve himproves⟩⟩
    · exact ⟨c, hgraded.next b hb c hc, hnode, hkey, .inl hwaits⟩

theorem searching_frontier (hb₀ : P b₀) : S.Searching P goal b₀ (S.frontier b₀) [] (S.key b₀) := by
  have hcovered : S.Covered (S.frontier b₀) b₀ := ⟨S.key b₀, by simp [frontier], le_rfl⟩
  refine ⟨fun x hx => ?_, ⟨List.pairwise_singleton _ _, fun x hx => ?_, List.pairwise_singleton _ _⟩,
    ⟨fun x hx => ?_, fun v hv => by cases hv⟩, List.nodup_nil, fun v k hk => ?_, hcovered⟩
  · obtain rfl := List.mem_singleton.mp hx
    exact hb₀
  · obtain rfl := List.mem_singleton.mp hx
    exact hcovered
  · obtain rfl := List.mem_singleton.mp hx
    exact le_rfl
  · by_cases hv : v = S.node b₀
    · subst hv
      have hkey : S.key b₀ = k := by simpa [frontier] using hk
      exact ⟨b₀, hb₀, rfl, hkey, .inl (List.mem_singleton.mpr rfl)⟩
    · simp [frontier, update_of_ne hv] at hk

/-! ### Rounds -/

theorem round_inl {f' : Frontier ν κ β} (h : S.round goal f = .inl f') :
    ∃ b rest, f.queue = b :: rest ∧
      (f.best (S.node b) ≠ some (S.key b) ∧ f' = { f with queue := rest } ∨
        f.best (S.node b) = some (S.key b) ∧ S.node b ≠ goal ∧
          f' = (S.successors b).foldl S.relax { f with queue := rest, visited := f.visited + 1 }) := by
  unfold round at h
  split at h
  · cases h
  · rename_i b rest hqueue
    refine ⟨b, rest, hqueue, ?_⟩
    split at h
    · rename_i hstale
      exact .inl ⟨hstale, (Sum.inl.inj h).symm⟩
    · rename_i hfresh
      split at h
      · cases h
      · rename_i hgoal
        exact .inr ⟨not_not.mp hfresh, hgoal, (Sum.inl.inj h).symm⟩

theorem round_expand (hqueue : f.queue = b :: rest) (hfresh : f.best (S.node b) = some (S.key b))
    (hgoal : S.node b ≠ goal) :
    S.round goal f = .inl ((S.successors b).foldl S.relax
      { f with queue := rest, visited := f.visited + 1 }) := by
  unfold round
  rw [hqueue]
  simp [hfresh, hgoal]

variable {result : Option (β × ℕ)}

theorem round_inr (h : S.round goal f = .inr result) :
    f.queue = [] ∧ result = none ∨
      ∃ b rest, f.queue = b :: rest ∧ S.node b = goal ∧ result = some (b, f.visited + 1) := by
  unfold round at h
  split at h
  · rename_i hqueue
    exact .inl ⟨hqueue, (Sum.inr.inj h).symm⟩
  · rename_i b rest hqueue
    split at h
    · cases h
    · split at h
      · rename_i hgoal
        exact .inr ⟨b, rest, hqueue, hgoal, (Sum.inr.inj h).symm⟩
      · cases h

theorem search_mono {fuel fuel' : ℕ} (hle : fuel ≤ fuel')
    (h : S.search goal fuel f = some result) : S.search goal fuel' f = some result := by
  induction fuel generalizing fuel' f with
  | zero => cases h
  | succ fuel ih =>
    obtain ⟨n, rfl⟩ : ∃ n, fuel' = n + 1 := ⟨fuel' - 1, by omega⟩
    unfold search at h ⊢
    cases hround : S.round goal f with
    | inl f' =>
      rw [hround] at h
      exact ih (by omega) h
    | inr r =>
      rw [hround] at h
      exact h

theorem search_descends (hv : v ≠ goal) (hnode : ∀ b, P b → S.node b = v)
    (hnext : ∀ b, P b → ∃ c, S.successors b = [c] ∧ P c ∧ S.key c < S.key b) (fuel : ℕ) (hb : P b)
    (hqueue : f.queue = [b]) (hbest : f.best v = some (S.key b)) : S.search goal fuel f = none := by
  induction fuel generalizing f b with
  | zero => rfl
  | succ fuel ih =>
    obtain ⟨c, hsuccessors, hc, hless⟩ := hnext b hb
    have hround : S.round goal f = .inl ((S.successors b).foldl S.relax
        { f with queue := [], visited := f.visited + 1 }) :=
      round_expand hqueue ((hnode b hb).symm ▸ hbest) ((hnode b hb).symm ▸ hv)
    have hcovered : ¬ S.Covered { f with queue := [], visited := f.visited + 1 } c := by
      intro hcovered
      obtain ⟨k, hk, hle⟩ := hcovered
      have hk' : f.best v = some k := hnode c hc ▸ hk
      obtain rfl := Option.some.inj (hbest.symm.trans hk')
      exact absurd hless (not_lt.mpr hle)
    rw [hsuccessors, List.foldl_cons, List.foldl_nil, relax_of_not_covered hcovered, hnode c hc] at hround
    unfold search
    rw [hround]
    exact ih hc rfl (update_self ..)

/-- **Over finitely many nodes there is enough fuel**: every round visits a node that had not been visited,
or shortens the queue. -/
theorem search_total (hgraded : S.Graded P) {nodes : List ν} (hnodes : ∀ b, P b → S.node b ∈ nodes)
    (h : S.Searching P goal b₀ f done low) : ∃ fuel result, S.search goal fuel f = some result := by
  have hbound {f : Frontier ν κ β} {done : List ν} {low : κ} (h : S.Searching P goal b₀ f done low) :
      done.length ≤ nodes.length := by
    apply (List.subperm_of_subset h.nodup ?_).length_le
    intro v hv
    obtain ⟨k, hk, -⟩ := h.closed.settled v hv
    obtain ⟨b, hb, rfl, -⟩ := h.labelled v k hk
    exact hnodes b hb
  -- by induction on the nodes that are left and, within it, on the length of the queue
  induction hleft : nodes.length - done.length using Nat.strong_induction_on
    generalizing f done low with
  | _ left ihnodes =>
    induction hlength : f.queue.length generalizing f with
    | zero =>
      refine ⟨1, none, ?_⟩
      have hqueue : f.queue = [] := List.length_eq_zero_iff.mp hlength
      simp [search, round, hqueue]
    | succ n ihqueue =>
      cases hround : S.round goal f with
      | inr result => exact ⟨1, result, by simp [search, hround]⟩
      | inl f' =>
        have hnext : ∃ fuel result, S.search goal fuel f' = some result := by
          obtain ⟨b, rest, hqueue, ⟨hstale, rfl⟩ | ⟨hfresh, hgoal, rfl⟩⟩ := round_inl hround
          · apply ihqueue (h.drop hqueue hstale)
            rw [hqueue] at hlength
            exact Nat.succ.inj hlength
          · have hnext := h.expand hgraded hqueue hfresh hgoal
            have hdone := hbound hnext
            rw [List.length_cons] at hdone
            refine ihnodes _ ?_ hnext rfl
            rw [List.length_cons]
            omega
        obtain ⟨fuel, result, hresult⟩ := hnext
        exact ⟨fuel + 1, result, by simp only [search, hround]; exact hresult⟩

/-! ### The best entry -/

omit [DecidableEq ν] in
theorem Reached.prop (hgraded : S.Graded P) (hb₀ : P b₀) (h : S.Reached b₀ x) : P x := by
  induction h with
  | start => exact hb₀
  | next _ hc ih => exact hgraded.next _ ih _ hc

omit [DecidableEq ν] in
/-- **What can be reached is waited for, or its node has been expanded**, with a key that is as good. -/
theorem Searching.waiting (hgraded : S.Graded P) (hexchanges : S.Exchanges P) (hb₀ : P b₀)
    (h : S.Searching P goal b₀ f done low) (hx : S.Reached b₀ x) :
    (∃ y ∈ f.queue, S.key y ≤ S.key x) ∨
      ∃ b, P b ∧ S.node b = S.node x ∧ S.key b ≤ S.key x ∧ S.Expanded goal f b := by
  have hlabel {x : β} (hcovered : S.Covered f x) : (∃ y ∈ f.queue, S.key y ≤ S.key x) ∨
      ∃ b, P b ∧ S.node b = S.node x ∧ S.key b ≤ S.key x ∧ S.Expanded goal f b := by
    obtain ⟨k, hk, hle⟩ := hcovered
    obtain ⟨b, hb, hnode, rfl, hwaits | hexpanded⟩ := h.labelled _ k hk
    · exact .inl ⟨b, hwaits, hle⟩
    · exact .inr ⟨b, hb, hnode, hle, hexpanded⟩
  induction hx with
  | start => exact hlabel h.started
  | @next x c hx hc ih =>
    have hpx := hx.prop hgraded hb₀
    rcases ih with ⟨y, hy, hle⟩ | ⟨b, hb, hnode, hle, hexpanded⟩
    · exact .inl ⟨y, hy, hle.trans (hgraded.grows x hpx c hc).le⟩
    · obtain ⟨d, hd, hdnode, hdle⟩ := hexchanges b x hb hpx hnode hle c hc
      have hcovered : S.Covered f c := by
        obtain ⟨k, hk, hkle⟩ := hexpanded.2 d hd
        exact ⟨k, hdnode ▸ hk, hkle.trans hdle⟩
      exact hlabel hcovered

/-- **The optimality rule.**  The entry the search ends with is as good as every entry at the goal that can
be reached; without one, none can. -/
theorem search_best (hgraded : S.Graded P) (hexchanges : S.Exchanges P) (hb₀ : P b₀) {fuel : ℕ}
    (h : S.Searching P goal b₀ f done low) (hsearch : S.search goal fuel f = some result)
    (hx : S.Reached b₀ x) (hgoal : S.node x = goal) : ∃ b n, result = some (b, n) ∧ S.key b ≤ S.key x := by
  induction fuel generalizing f done low with
  | zero => cases hsearch
  | succ fuel ih =>
    unfold search at hsearch
    cases hround : S.round goal f with
    | inl f' =>
      rw [hround] at hsearch
      obtain ⟨b, rest, hqueue, ⟨hstale, rfl⟩ | ⟨hfresh, hnot, rfl⟩⟩ := round_inl hround
      · exact ih (h.drop hqueue hstale) hsearch
      · exact ih (h.expand hgraded hqueue hfresh hnot) hsearch
    | inr r =>
      rw [hround] at hsearch
      cases hsearch
      have hwaits : ∃ y ∈ f.queue, S.key y ≤ S.key x := by
        rcases h.waiting hgraded hexchanges hb₀ hx with hwaits | ⟨b, -, hnode, -, hexpanded⟩
        · exact hwaits
        · exact absurd (hnode.trans hgoal) hexpanded.1
      obtain ⟨y, hy, hle⟩ := hwaits
      rcases round_inr hround with ⟨hqueue, -⟩ | ⟨b, rest, hqueue, -, rfl⟩
      · rw [hqueue] at hy
        cases hy
      · exact ⟨b, _, rfl, (h.key_le hgraded hqueue hy).trans hle⟩

/-! ### A search without a result -/

/-- The nodes that follow an entry depend on its node alone. -/
def Local (S : Space ν κ τ β) : Prop :=
  ∀ a b, S.node a = S.node b → ∀ c ∈ S.successors a, ∃ d ∈ S.successors b, S.node d = S.node c

/-- Every node that has been seen is waited for with its best key, or all that follows it has been seen. -/
structure Exploring (S : Space ν κ τ β) (goal : ν) (b₀ : β) (f : Frontier ν κ β) : Prop where
  started : ∃ k, f.best (S.node b₀) = some k
  labelled : ∀ v k, f.best v = some k → (∃ x ∈ f.queue, S.node x = v ∧ S.key x = k) ∨
    v ≠ goal ∧ ∀ b, S.node b = v → ∀ c ∈ S.successors b, ∃ k', f.best (S.node c) = some k'

omit [DecidableEq ν] [LinearOrder τ] in
theorem Improves.seen {f' : Frontier ν κ β} (h : Improves f f') (hv : ∃ k, f.best v = some k) :
    ∃ k, f'.best v = some k := by
  obtain ⟨k, hk⟩ := hv
  obtain ⟨k', hk', -⟩ := h v k hk
  exact ⟨k', hk'⟩

omit [LinearOrder κ] [LinearOrder τ] in
theorem exploring_frontier : S.Exploring goal b₀ (S.frontier b₀) := by
  refine ⟨⟨S.key b₀, by simp [frontier]⟩, fun v k hk => ?_⟩
  by_cases hv : v = S.node b₀
  · subst hv
    exact .inl ⟨b₀, List.mem_singleton.mpr rfl, rfl, by simpa [frontier] using hk⟩
  · simp [frontier, update_of_ne hv] at hk

theorem Exploring.round {f' : Frontier ν κ β} (hlocal : S.Local) (h : S.Exploring goal b₀ f)
    (hround : S.round goal f = .inl f') : S.Exploring goal b₀ f' := by
  obtain ⟨b, rest, hqueue, ⟨hstale, rfl⟩ | ⟨hfresh, hgoal, rfl⟩⟩ := round_inl hround
  · refine ⟨h.started, fun v k hk => ?_⟩
    rcases h.labelled v k hk with ⟨x, hx, hnode, hkey⟩ | hseen
    · rw [hqueue] at hx
      rcases List.mem_cons.mp hx with rfl | hrest
      · rw [hnode, hkey] at hstale
        exact absurd hk hstale
      · exact .inl ⟨x, hrest, hnode, hkey⟩
    · exact .inr hseen
  · have himproves := foldl_improves (S := S) (S.successors b)
      { f with queue := rest, visited := f.visited + 1 }
    refine ⟨himproves.seen h.started, fun v k hk => ?_⟩
    rcases best_foldl hk with hold | ⟨c, hc, hnode, hkey, hwaits⟩
    · rcases h.labelled v k hold with ⟨x, hx, hnode, hkey⟩ | ⟨hnot, hseen⟩
      · rw [hqueue] at hx
        rcases List.mem_cons.mp hx with rfl | hrest
        · refine .inr ⟨hnode ▸ hgoal, fun b' hb' c hc => ?_⟩
          obtain ⟨d, hd, hsame⟩ := hlocal b' x (hb'.trans hnode.symm) c hc
          have hcovered : S.Covered ((S.successors x).foldl S.relax
              { f with queue := rest, visited := f.visited + 1 }) d := covered_foldl hd _
          obtain ⟨k', hk', -⟩ := hcovered
          exact ⟨k', hsame ▸ hk'⟩
        · exact .inl ⟨x, mem_queue_foldl hrest, hnode, hkey⟩
      · exact .inr ⟨hnot, fun b' hb' c hc => himproves.seen (hseen b' hb' c hc)⟩
    · exact .inl ⟨c, hwaits, hnode, hkey⟩

/-- **A search that ends without a result** has seen everything, and not the goal. -/
theorem search_none (hlocal : S.Local) {fuel : ℕ} (h : S.Exploring goal b₀ f)
    (hsearch : S.search goal fuel f = some none) (hx : S.Reached b₀ x) : S.node x ≠ goal := by
  induction fuel generalizing f with
  | zero => cases hsearch
  | succ fuel ih =>
    unfold search at hsearch
    cases hround : S.round goal f with
    | inl f' =>
      rw [hround] at hsearch
      exact ih (h.round hlocal hround) hsearch
    | inr r =>
      rw [hround] at hsearch
      cases hsearch
      have hempty : f.queue = [] := by
        rcases round_inr hround with ⟨hqueue, -⟩ | ⟨b, rest, -, -, hresult⟩
        · exact hqueue
        · cases hresult
      have hdone : ∀ v k, f.best v = some k → v ≠ goal ∧
          ∀ b, S.node b = v → ∀ c ∈ S.successors b, ∃ k', f.best (S.node c) = some k' := by
        intro v k hk
        rcases h.labelled v k hk with ⟨y, hy, -⟩ | hseen
        · rw [hempty] at hy
          cases hy
        · exact hseen
      have hseen : ∀ y, S.Reached b₀ y → ∃ k, f.best (S.node y) = some k := by
        intro y hy
        induction hy with
        | start => exact h.started
        | next _ hc ihy =>
          obtain ⟨k, hk⟩ := ihy
          exact (hdone _ k hk).2 _ rfl _ hc
      obtain ⟨k, hk⟩ := hseen x hx
      exact (hdone _ k hk).1

end CountyFlow.Lib.Space
