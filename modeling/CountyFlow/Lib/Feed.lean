import Mathlib.Data.List.Sublists

/-!
# A queue that gives up its oldest elements

A queue between a writer and a reader.  When there is no room the writer takes the oldest element out; the
reader takes the oldest one too.
-/

namespace CountyFlow.Lib

/-- The queue and its past; `drops` has what the queue held whenever its oldest element was dropped. -/
structure Feed (α : Type*) where
  queue : List α
  offered : List α
  received : List α
  drops : List (List α)
  deriving DecidableEq, Repr

namespace Feed

variable {α : Type*}

def empty : Feed α := ⟨[], [], [], []⟩

def put (f : Feed α) (a : α) : Feed α :=
  { f with queue := f.queue ++ [a], offered := f.offered ++ [a] }

def drop (f : Feed α) : Feed α :=
  match f.queue with
  | [] => f
  | oldest :: rest => { f with queue := rest, drops := f.drops ++ [oldest :: rest] }

/-- The reader takes the oldest element, when there is one. -/
def take (f : Feed α) : Option (Feed α) :=
  match f.queue with
  | [] => none
  | oldest :: rest => some { f with queue := rest, received := f.received ++ [oldest] }

@[simp] theorem put_offered (f : Feed α) (a : α) : (f.put a).offered = f.offered ++ [a] := rfl

@[simp] theorem drop_offered (f : Feed α) : f.drop.offered = f.offered := by
  unfold drop
  split <;> rfl

theorem take_offered {f f' : Feed α} (h : f.take = some f') : f'.offered = f.offered := by
  unfold take at h
  split at h
  · cases h
  · cases h
    rfl

/-! ### What leaves the queue -/

/-- The element was the oldest one at a drop. -/
def Dropped (f : Feed α) (a : α) : Prop := ∃ held ∈ f.drops, held.head? = some a

/-- What was put in is the queue behind what has left it, and each of those was received or dropped. -/
structure Accounted (f : Feed α) (gone : List α) : Prop where
  split : f.offered = gone ++ f.queue
  received : f.received.Sublist gone
  left : ∀ a ∈ gone, a ∈ f.received ∨ f.Dropped a

theorem accounted_empty : (empty : Feed α).Accounted [] where
  split := rfl
  received := .slnil
  left := nofun

theorem Accounted.put {f : Feed α} {gone : List α} (h : f.Accounted gone) (a : α) :
    (f.put a).Accounted gone where
  split := by
    show f.offered ++ [a] = gone ++ (f.queue ++ [a])
    rw [h.split, List.append_assoc]
  received := h.received
  left := h.left

theorem Accounted.drop {f : Feed α} {gone : List α} (h : f.Accounted gone) : ∃ gone',
    f.drop.Accounted gone' := by
  unfold Feed.drop
  split
  · exact ⟨gone, h⟩
  · rename_i oldest rest hqueue
    refine ⟨gone ++ [oldest], ?_, ?_, fun a ha => ?_⟩
    · show f.offered = gone ++ [oldest] ++ rest
      rw [h.split, hqueue, List.append_assoc, List.singleton_append]
    · exact h.received.trans (List.sublist_append_left gone [oldest])
    · rcases List.mem_append.mp ha with ha | ha
      · refine (h.left a ha).imp_right fun hdropped => ?_
        obtain ⟨held, hmem, hhead⟩ := hdropped
        exact ⟨held, List.mem_append_left _ hmem, hhead⟩
      · cases List.mem_singleton.mp ha
        exact .inr ⟨oldest :: rest, List.mem_append_right f.drops (List.mem_singleton_self _), rfl⟩

theorem Accounted.take {f f' : Feed α} {gone : List α} (h : f.Accounted gone) (htake : f.take = some f') :
    ∃ gone', f'.Accounted gone' := by
  unfold Feed.take at htake
  split at htake
  · cases htake
  · rename_i oldest rest hqueue
    cases htake
    refine ⟨gone ++ [oldest], ?_, ?_, fun a ha => ?_⟩
    · show f.offered = gone ++ [oldest] ++ rest
      rw [h.split, hqueue, List.append_assoc, List.singleton_append]
    · exact h.received.append_right [oldest]
    · rcases List.mem_append.mp ha with ha | ha
      · exact (h.left a ha).imp_left (List.mem_append_left [oldest])
      · exact .inl (List.mem_append_right f.received ha)

/-! ### A limit -/

/-- The queue keeps to its limit, and it was full at every drop; a limit of 0 is none. -/
structure Within (limit : ℕ) (f : Feed α) : Prop where
  room : 0 < limit → f.queue.length ≤ limit
  full : ∀ held ∈ f.drops, held.length = limit

variable {limit : ℕ} {f f' : Feed α} {gone : List α}

theorem within_empty (limit : ℕ) : (empty : Feed α).Within limit := ⟨fun _ => Nat.zero_le limit, nofun⟩

theorem Within.put (h : f.Within limit) (hroom : 0 < limit → f.queue.length < limit) (a : α) :
    (f.put a).Within limit where
  room hlimit := by
    show (f.queue ++ [a]).length ≤ limit
    rw [List.length_append, List.length_singleton]
    exact hroom hlimit
  full := h.full

/-- A drop from a full queue makes room for one element. -/
theorem Within.drop (h : f.Within limit) (hlimit : 0 < limit) (hfull : limit ≤ f.queue.length) :
    f.drop.Within limit ∧ f.drop.queue.length < limit := by
  have hlength : f.queue.length = limit := le_antisymm (h.room hlimit) hfull
  unfold Feed.drop
  split
  · rename_i hqueue
    rw [hqueue] at hlength
    exact absurd hlength (Nat.ne_of_lt hlimit)
  · rename_i oldest rest hqueue
    rw [hqueue, List.length_cons] at hlength
    refine ⟨⟨fun _ => by show rest.length ≤ limit; omega, fun held hmem => ?_⟩, by
      show rest.length < limit; omega⟩
    rcases List.mem_append.mp hmem with hmem | hmem
    · exact h.full held hmem
    · rw [List.mem_singleton.mp hmem, List.length_cons, hlength]

theorem Within.take (h : f.Within limit) (htake : f.take = some f') : f'.Within limit := by
  unfold Feed.take at htake
  split at htake
  · cases htake
  · rename_i oldest rest hqueue
    cases htake
    refine ⟨fun hlimit => ?_, h.full⟩
    have hroom := h.room hlimit
    rw [hqueue, List.length_cons] at hroom
    show rest.length ≤ limit
    omega

/-! ### What follows -/

/-- **Nothing is lost but what was dropped.** -/
theorem Accounted.account (h : f.Accounted gone) {a : α} (ha : a ∈ f.offered) :
    a ∈ f.received ∨ a ∈ f.queue ∨ f.Dropped a := by
  rw [h.split] at ha
  rcases List.mem_append.mp ha with ha | ha
  · exact (h.left a ha).imp_right .inr
  · exact .inr (.inl ha)

/-- **The order stays**, and nothing is received twice. -/
theorem Accounted.received_queue_sublist (h : f.Accounted gone) :
    (f.received ++ f.queue).Sublist f.offered := by
  rw [h.split]
  exact h.received.append_right f.queue

end Feed

end CountyFlow.Lib
