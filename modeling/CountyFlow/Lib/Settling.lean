import Mathlib.Order.MinMax
import CountyFlow.Lib.Runs

/-!
# Computations that need fuel

A computation settles when from some amount of fuel on it succeeds with one and the same result.  What is
made of parts that settle settles: the parts need the most that one of them needs.
-/

namespace CountyFlow.Lib

universe u

variable {ε : Type*} {α β : Type u}

/-- With enough fuel the computation succeeds, and always with the same result. -/
def Settles (f : ℕ → Except ε α) : Prop := ∃ fuel a, ∀ n, fuel ≤ n → f n = .ok a

theorem Settles.const (a : α) : Settles fun _ => (.ok a : Except ε α) := ⟨0, a, fun _ _ => rfl⟩

variable {f : ℕ → Except ε α} {g : ℕ → α → Except ε β}

theorem Settles.bind_of (hf : Settles f)
    (hg : ∀ n a, f n = .ok a → Settles fun n => g n a) : Settles fun n => f n >>= g n := by
  obtain ⟨fuel, a, hf⟩ := hf
  obtain ⟨fuel', b, hg⟩ := hg fuel a (hf fuel le_rfl)
  refine ⟨max fuel fuel', b, fun n hn => ?_⟩
  exact bind_eq_ok.mpr ⟨a, hf n (le_of_max_le_left hn), hg n (le_of_max_le_right hn)⟩

theorem Settles.bind (hf : Settles f) (hg : ∀ a, Settles fun n => g n a) : Settles fun n => f n >>= g n :=
  hf.bind_of fun _ a _ => hg a

theorem Settles.mapM {γ : Type*} {f : ℕ → γ → Except ε α} {l : List γ}
    (hf : ∀ c ∈ l, Settles fun n => f n c) : Settles fun n => l.mapM (f n) := by
  induction l with
  | nil => exact Settles.const []
  | cons c l ih =>
    simp only [List.mapM_cons]
    refine (hf c List.mem_cons_self).bind fun a => ?_
    exact (ih fun d hd => hf d (List.mem_cons_of_mem c hd)).bind fun as => Settles.const (a :: as)

end CountyFlow.Lib
