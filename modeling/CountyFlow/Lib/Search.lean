import Mathlib.Data.List.Sort
import Mathlib.Order.Basic

/-!
# Walks and best-first search

A search keeps a queue of entries, ordered by their rank, and for every node the best key it has
seen.  It takes the first entry; one whose key is not the best of its node any more is dropped,
another one is either at the goal or hands its successors to the queue.
-/

namespace CountyFlow.Lib

/-! ### Walks -/

section Walks

variable {ν ε : Type*} {R R' : ν → ε → ν → Prop} {a b : ν} {ns : List ν} {es : List ε}

/-- `Walk R a ns es b`: from `a` through the nodes `ns` along the edges `es` to `b`. -/
inductive Walk (R : ν → ε → ν → Prop) (a : ν) : List ν → List ε → ν → Prop
  | start : Walk R a [a] [] a
  | snoc {ns : List ν} {es : List ε} {b c : ν} {e : ε} :
      Walk R a ns es b → R b e c → Walk R a (ns ++ [c]) (es ++ [e]) c

variable {e : ε}

namespace Walk

theorem length (h : Walk R a ns es b) : ns.length = es.length + 1 := by
  induction h with
  | start => rfl
  | snoc _ _ ih => rw [List.length_append, List.length_append, ih]; rfl

theorem mono (hsub : ∀ x e y, R x e y → R' x e y) (h : Walk R a ns es b) : Walk R' a ns es b := by
  induction h with
  | start => exact .start
  | snoc _ hstep ih => exact ih.snoc (hsub _ _ _ hstep)

theorem getLast (h : Walk R a ns es b) : ns[es.length]? = some b := by
  cases h with
  | start => rfl
  | snoc hwalk _ =>
    rw [List.length_append, List.length_singleton, ← hwalk.length]
    exact List.getElem?_concat_length

theorem get (h : Walk R a ns es b) {i : ℕ} (hi : es[i]? = some e) :
    ∃ x y, ns[i]? = some x ∧ ns[i + 1]? = some y ∧ R x e y := by
  induction h with
  | start => simp at hi
  | @snoc ns es b c e' hwalk hstep ih =>
    rcases lt_or_ge i es.length with hlt | hge
    · rw [List.getElem?_append_left hlt] at hi
      obtain ⟨x, y, hx, hy, hxy⟩ := ih hi
      have hlength := hwalk.length
      exact ⟨x, y, by rw [List.getElem?_append_left (by omega)]; exact hx,
        by rw [List.getElem?_append_left (by omega)]; exact hy, hxy⟩
    · rw [List.getElem?_append_right hge] at hi
      have hzero : i - es.length = 0 := by
        by_contra hne
        rw [List.getElem?_eq_none (by simp; omega)] at hi
        cases hi
      rw [hzero] at hi
      obtain rfl : e' = e := Option.some.inj hi
      have hi' : i = es.length := by omega
      have hlength := hwalk.length
      subst hi'
      refine ⟨b, c, ?_, ?_, hstep⟩
      · rw [List.getElem?_append_left (by omega)]
        exact hwalk.getLast
      · rw [← hlength]
        exact List.getElem?_concat_length

theorem forall_edges (h : Walk R a ns es b) (he : e ∈ es) : ∃ x y, R x e y := by
  obtain ⟨i, hi⟩ := List.mem_iff_getElem?.mp he
  obtain ⟨x, y, -, -, hxy⟩ := h.get hi
  exact ⟨x, y, hxy⟩

theorem cons {c : ν} (hstep : R a e b) (h : Walk R b ns es c) : Walk R a (a :: ns) (e :: es) c := by
  induction h with
  | start => exact .snoc .start hstep
  | snoc _ hlast ih => exact ih.snoc hlast

theorem reverse (h : Walk R a ns es b) : Walk (fun x e y => R y e x) b ns.reverse es.reverse a := by
  induction h with
  | start => exact .start
  | snoc _ hlast ih =>
    rw [List.reverse_concat, List.reverse_concat]
    exact ih.cons hlast

theorem nil (h : Walk R a ns [] b) : ns = [a] ∧ b = a := by
  generalize hes : ([] : List ε) = es at h
  cases h with
  | start => exact ⟨rfl, rfl⟩
  | snoc => simp at hes

theorem uncons (h : Walk R a ns (e :: es) b) : ∃ x ns', R a e x ∧ ns = a :: ns' ∧ Walk R x ns' es b := by
  generalize hes : e :: es = es' at h
  induction h generalizing es with
  | start => cases hes
  | @snoc ns₁ es₁ x y e₁ hwalk hlast ih =>
    cases es₁ with
    | nil =>
      obtain ⟨rfl, rfl⟩ := List.cons.inj hes
      obtain ⟨rfl, rfl⟩ := hwalk.nil
      exact ⟨y, [y], hlast, rfl, .start⟩
    | cons e₂ es₂ =>
      obtain ⟨rfl, rfl⟩ := List.cons.inj hes
      obtain ⟨z, ns', hfirst, rfl, hrest⟩ := ih rfl
      exact ⟨z, ns' ++ [y], hfirst, rfl, hrest.snoc hlast⟩

end Walk

end Walks

/-! ### Best-first search -/

/-- What is searched: entries `β` at nodes `ν`, compared at a node by their key and in the queue by
their rank. -/
structure Space (ν κ τ β : Type*) where
  node : β → ν
  key : β → κ
  rank : β → τ
  successors : β → List β

/-- The queue, the best key of every node seen, and the number of entries that were not stale. -/
structure Frontier (ν κ β : Type*) where
  queue : List β
  best : ν → Option κ
  visited : ℕ

namespace Space

variable {ν κ τ β : Type*} [DecidableEq ν] [LinearOrder κ] [LinearOrder τ] (S : Space ν κ τ β)

/-- An entry joins the queue when it is better than what its node has seen. -/
def relax (f : Frontier ν κ β) (b : β) : Frontier ν κ β :=
  if ∃ k ∈ f.best (S.node b), k ≤ S.key b then f
  else { f with
    queue := f.queue.orderedInsert (fun x y => S.rank x ≤ S.rank y) b
    best := Function.update f.best (S.node b) (some (S.key b)) }

def round (goal : ν) (f : Frontier ν κ β) : Frontier ν κ β ⊕ Option (β × ℕ) :=
  match f.queue with
  | [] => .inr none
  | b :: rest =>
    if f.best (S.node b) ≠ some (S.key b) then .inl { f with queue := rest }
    else if S.node b = goal then .inr (some (b, f.visited + 1))
    else .inl ((S.successors b).foldl S.relax
      { f with queue := rest, visited := f.visited + 1 })

/-- `none` when the fuel runs out. -/
def search (goal : ν) : ℕ → Frontier ν κ β → Option (Option (β × ℕ))
  | 0, _ => none
  | fuel + 1, f =>
    match S.round goal f with
    | .inl f' => search goal fuel f'
    | .inr result => some result

def frontier (b : β) : Frontier ν κ β :=
  ⟨[b], Function.update (fun _ => none) (S.node b) (some (S.key b)), 0⟩

variable {S}

variable {f : Frontier ν κ β} {b x : β}

theorem mem_relax (h : x ∈ (S.relax f b).queue) : x = b ∨ x ∈ f.queue := by
  unfold relax at h
  split at h
  · exact .inr h
  · exact (List.mem_orderedInsert _).mp h

theorem mem_foldl_relax {bs : List β} (h : x ∈ (bs.foldl S.relax f).queue) : x ∈ bs ∨ x ∈ f.queue := by
  induction bs generalizing f with
  | nil => exact .inr h
  | cons b bs ih =>
    rcases ih h with hin | hin
    · exact .inl (List.mem_cons_of_mem _ hin)
    · rcases mem_relax hin with rfl | hold
      · exact .inl (List.mem_cons_self ..)
      · exact .inr hold

/-- **The soundness rule.**  What holds of the entries of the queue, and is handed on from an entry
that is not at the goal to its successors, holds of the entry the search ends with. -/
theorem search_sound {goal : ν} {P : β → Prop}
    (hstep : ∀ b, P b → S.node b ≠ goal → ∀ c ∈ S.successors b, P c) {fuel : ℕ} {n : ℕ}
    (hP : ∀ x ∈ f.queue, P x) (h : S.search goal fuel f = some (some (b, n))) : P b ∧ S.node b = goal := by
  induction fuel generalizing f with
  | zero => cases h
  | succ fuel ih =>
    unfold search at h
    cases hround : S.round goal f with
    | inr result =>
      rw [hround] at h
      obtain rfl : result = some (b, n) := Option.some.inj h
      unfold round at hround
      split at hround
      · cases hround
      · rename_i x rest hqueue
        split at hround
        · cases hround
        · split at hround
          · rename_i hgoal
            cases hround
            exact ⟨hP b (by rw [hqueue]; exact List.mem_cons_self ..), hgoal⟩
          · cases hround
    | inl f' =>
      rw [hround] at h
      refine ih (fun x hx => ?_) h
      unfold round at hround
      split at hround
      · cases hround
      · rename_i y rest hqueue
        have hrest : ∀ z ∈ rest, P z := fun z hz =>
          hP z (by rw [hqueue]; exact List.mem_cons_of_mem _ hz)
        split at hround
        · cases hround
          exact hrest x hx
        · split at hround
          · cases hround
          · rename_i hgoal
            cases hround
            rcases mem_foldl_relax hx with hin | hin
            · exact hstep y (hP y (by rw [hqueue]; exact List.mem_cons_self ..)) hgoal x hin
            · exact hrest x hin

end Space

end CountyFlow.Lib
