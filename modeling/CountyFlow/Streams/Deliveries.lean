import Mathlib.Data.List.Perm.Subperm
import CountyFlow.Streams.Recovery

/-!
# The delivery counts of a claim

`claim_pending` claims by one command and asks for the delivery counts by another: `XAUTOCLAIM` takes the
entries that are idle, whoever holds them, and `XPENDING` returns the first entries of the consumer, as many
as have been claimed.
-/

namespace CountyFlow.Streams

open CountyFlow.Core CountyFlow.Lib
open CountyFlow.Events (StreamId idText idText_injective)

/-! ### The commands -/

namespace PendingEntry

/-- The entry is no longer in the stream. -/
def deleted (p : PendingEntry) : Bool := p.entry.2.isNone

/-- The entry was delivered so long ago. -/
def idle (now minIdle : ℕ) (p : PendingEntry) : Bool := p.deliveredAt + minIdle ≤ now

def taken (now minIdle : ℕ) (p : PendingEntry) : Bool := !p.deleted && p.idle now minIdle

/-- What a claim that comes to the entry leaves of it. -/
def left (now minIdle : ℕ) (consumer : String) (p : PendingEntry) : Option PendingEntry :=
  if p.deleted then none else if p.idle now minIdle then some (p.claim now consumer) else some p

end PendingEntry

/-- The entries `XAUTOCLAIM` comes to: so many at most, and not more than it may return; one that is
deleted counts as returned. -/
def reached (now minIdle : ℕ) : ℕ → ℕ → List PendingEntry → List PendingEntry
  | attempts + 1, count + 1, p :: rest =>
    p :: reached now minIdle attempts
      (if p.deleted || p.idle now minIdle then count else count + 1) rest
  | _, _, _ => []

/-- A call of `claim_pending`, and the clock of Redis. -/
structure Claim where
  stream : String
  now : ℕ
  consumer : String
  minIdle : ℕ
  start : StreamId
  count : ℕ

namespace Claim

variable (c : Claim)

def before (pending : List PendingEntry) : List PendingEntry :=
  pending.takeWhile fun p => p.entry.1 < c.start

def behind (pending : List PendingEntry) : List PendingEntry :=
  pending.dropWhile fun p => p.entry.1 < c.start

/-- The entries the claim comes to: it looks at ten for each one it may return. -/
def seen (pending : List PendingEntry) : List PendingEntry :=
  reached c.now c.minIdle (10 * c.count) c.count (c.behind pending)

/-- `XAUTOCLAIM`: the entries that it returns. -/
def entries (pending : List PendingEntry) : List Entry :=
  ((c.seen pending).filter (PendingEntry.taken c.now c.minIdle)).map PendingEntry.entry

/-- `XAUTOCLAIM`: the pending entries after it. -/
def rows (pending : List PendingEntry) : List PendingEntry :=
  c.before pending ++ (c.seen pending).filterMap (PendingEntry.left c.now c.minIdle c.consumer) ++
    (c.behind pending).drop (c.seen pending).length

/-- The entries that a consumer holds. -/
def own (pending : List PendingEntry) : List PendingEntry :=
  pending.filter fun p => p.consumer = c.consumer

/-- `_pending_idle_times`, before the claim. -/
def pendingIdleTimes (pending : List PendingEntry) : List (String × ℕ) :=
  (pending.take c.count).map fun p => (idText p.entry.1, c.now - p.deliveredAt)

/-- `_delivery_counts`, behind the claim: the first entries of the consumer, as many as there are
messages. -/
def deliveryCounts (pending : List PendingEntry) : List (String × ℕ) :=
  ((c.own (c.rows pending)).take (c.entries pending).length).map fun p => (idText p.entry.1, p.deliveries)

/-- `claim_pending`, with its commands. -/
def messages (pending : List PendingEntry) : Except QueueMessageError (List StreamMessage) :=
  claimPending c.stream (c.entries pending) (c.pendingIdleTimes pending) (c.deliveryCounts pending)

/-- **The message carries the number of deliveries that Redis has recorded behind the claim.** -/
def CountTrue (pending : List PendingEntry) (message : StreamMessage) : Prop :=
  ∃ p ∈ c.rows pending, idText p.entry.1 = message.messageId ∧ message.deliveryCount = some p.deliveries

/-- **The condition**: an entry the consumer holds, and that stands before one the claim takes, is reached
by the claim and idle, or no longer in the stream. -/
def NoneAside (pending : List PendingEntry) : Prop :=
  ∀ q ∈ c.seen pending, q.taken c.now c.minIdle = true →
    ∀ p ∈ c.own pending, p.entry.1 < q.entry.1 →
      c.start ≤ p.entry.1 ∧ (p.deleted = true ∨ p.idle c.now c.minIdle = true)

instance (pending : List PendingEntry) : Decidable (c.NoneAside pending) := by
  unfold NoneAside
  infer_instance

end Claim

/-! ### The chosen elements of a list -/

theorem mem_take_countP_iff {α : Type*} (chosen : α → Bool) {l : List α} (hl : l.Nodup) :
    (∀ x ∈ l, chosen x = true → x ∈ l.take (l.countP chosen)) ↔
      l.Pairwise fun x y => chosen y = true → chosen x = true := by
  induction l with
  | nil => simp
  | cons a l ih =>
    obtain ⟨ha, hl⟩ := List.nodup_cons.mp hl
    rw [List.pairwise_cons, ← ih hl]
    by_cases hchosen : chosen a = true
    · rw [List.countP_cons_of_pos hchosen, List.take_succ_cons]
      constructor
      · intro h
        refine ⟨fun _ _ _ => hchosen, fun x hx hxc => ?_⟩
        have hne : x ≠ a := ne_of_mem_of_not_mem hx ha
        exact (List.mem_cons.mp (h x (List.mem_cons_of_mem a hx) hxc)).resolve_left hne
      · rintro ⟨-, h⟩ x hx hxc
        rcases List.mem_cons.mp hx with rfl | hx
        · exact List.mem_cons_self
        · exact List.mem_cons_of_mem a (h x hx hxc)
    · rw [List.countP_cons_of_neg hchosen]
      constructor
      · intro h
        -- the first place is taken by an element that is not chosen, so there is none
        have hnone : l.countP chosen = 0 := by
          by_contra hpos
          obtain ⟨n, hn⟩ := Nat.exists_eq_succ_of_ne_zero hpos
          have hsub : l.filter chosen ⊆ l.take n := by
            intro x hx
            obtain ⟨hx, hxc⟩ := List.mem_filter.mp hx
            have hmem := h x (List.mem_cons_of_mem a hx) hxc
            rw [hn, List.take_succ_cons] at hmem
            exact (List.mem_cons.mp hmem).resolve_left (ne_of_mem_of_not_mem hx ha)
          have hlength := (List.subperm_of_subset (hl.filter chosen) hsub).length_le
          rw [← List.countP_eq_length_filter, hn, List.length_take] at hlength
          omega
        rw [List.countP_eq_zero] at hnone
        exact ⟨fun x hx hxc => absurd hxc (hnone x hx), fun x hx hxc => absurd hxc (hnone x hx)⟩
      · rintro ⟨hall, -⟩ x hx hxc
        rcases List.mem_cons.mp hx with rfl | hx
        · exact absurd hxc hchosen
        · exact absurd (hall x hx hxc) hchosen

/-! ### The pending entries behind a claim -/

theorem reached_initial (now minIdle : ℕ) (attempts count : ℕ) (pending : List PendingEntry) :
    reached now minIdle attempts count pending <+: pending := by
  induction pending generalizing attempts count with
  | nil => simp [reached]
  | cons p rest ih =>
    cases attempts with
    | zero => simp [reached]
    | succ attempts =>
      cases count with
      | zero => simp [reached]
      | succ count => exact List.cons_prefix_cons.mpr ⟨rfl, ih _ _⟩

theorem autoclaim_eq_reached {now minIdle : ℕ} {consumer : String} (attempts count : ℕ)
    {pending : List PendingEntry} (hpresent : ∀ p ∈ pending, p.deleted = false) :
    autoclaim now minIdle consumer attempts count pending =
      ((reached now minIdle attempts count pending).filterMap (PendingEntry.left now minIdle consumer) ++
          pending.drop (reached now minIdle attempts count pending).length,
        ((reached now minIdle attempts count pending).filter (PendingEntry.taken now minIdle)).map
          PendingEntry.entry) := by
  induction pending generalizing attempts count with
  | nil => cases attempts <;> simp [autoclaim, reached]
  | cons p rest ih =>
    cases attempts with
    | zero => simp [autoclaim, reached]
    | succ attempts =>
      cases count with
      | zero => simp [autoclaim, reached]
      | succ count =>
        have hp : p.deleted = false := hpresent p List.mem_cons_self
        have hrest : ∀ q ∈ rest, q.deleted = false :=
          fun q hq => hpresent q (List.mem_cons_of_mem p hq)
        by_cases hbusy : now < p.deliveredAt + minIdle
        · have hidle : p.idle now minIdle = false := decide_eq_false (not_le.mpr hbusy)
          simp [autoclaim, reached, hbusy, PendingEntry.left, PendingEntry.taken, hp, hidle,
            ih attempts (count + 1) hrest]
        · have hidle : p.idle now minIdle = true := decide_eq_true (not_lt.mp hbusy)
          simp [autoclaim, reached, hbusy, PendingEntry.left, PendingEntry.taken, hp, hidle,
            ih attempts count hrest]

variable {x q : PendingEntry}

namespace Claim

variable {c : Claim} {pending : List PendingEntry}

/-- The pending entries stand in the order of their ids. -/
def Sorted (pending : List PendingEntry) : Prop :=
  pending.Pairwise fun p q => p.entry.1 < q.entry.1

theorem behind_eq (c : Claim) (pending : List PendingEntry) :
    c.behind pending = c.seen pending ++ (c.behind pending).drop (c.seen pending).length :=
  (List.prefix_iff_eq_append.mp (reached_initial _ _ _ _ _)).symm

theorem eq_append (c : Claim) (pending : List PendingEntry) :
    pending = c.before pending ++ (c.seen pending ++ (c.behind pending).drop (c.seen pending).length) := by
  rw [← c.behind_eq pending, before, behind, List.takeWhile_append_dropWhile]

variable {p : PendingEntry}

theorem lt_start (hp : p ∈ c.before pending) : p.entry.1 < c.start := by
  simpa using List.mem_takeWhile_imp hp

theorem start_le (h : Sorted pending) (hp : p ∈ c.behind pending) : c.start ≤ p.entry.1 := by
  induction pending with
  | nil => cases hp
  | cons a rest ih =>
    obtain ⟨ha, hrest⟩ := List.pairwise_cons.mp h
    simp only [behind, List.dropWhile_cons] at hp
    split at hp
    · exact ih hrest hp
    · rename_i hstart
      have hle : c.start ≤ a.entry.1 := by simpa using hstart
      rcases List.mem_cons.mp hp with rfl | hp
      · exact hle
      · exact hle.trans (ha p hp).le

theorem mem_rows :
    x ∈ c.rows pending ↔ x ∈ c.before pending ∨
      (∃ p ∈ c.seen pending, p.left c.now c.minIdle c.consumer = some x) ∨
      x ∈ (c.behind pending).drop (c.seen pending).length := by
  simp only [rows, List.mem_append, List.mem_filterMap, or_assoc]

theorem eq_of_left (h : p.left c.now c.minIdle c.consumer = some x) :
    (p.taken c.now c.minIdle = true ∧ x = p.claim c.now c.consumer) ∨
      (x = p ∧ ¬ (p.deleted = true ∨ p.idle c.now c.minIdle = true)) := by
  unfold PendingEntry.left at h
  split at h
  · cases h
  · rename_i hdeleted
    split at h
    · rename_i hidle
      exact .inl ⟨by simp [PendingEntry.taken, hdeleted, hidle], (Option.some.inj h).symm⟩
    · rename_i hidle
      exact .inr ⟨(Option.some.inj h).symm, not_or.mpr ⟨hdeleted, hidle⟩⟩

theorem id_of_left (h : p.left c.now c.minIdle c.consumer = some x) : x.entry.1 = p.entry.1 := by
  rcases eq_of_left h with ⟨-, rfl⟩ | ⟨rfl, -⟩ <;> rfl

theorem left_sublist (c : Claim) (l : List PendingEntry) :
    List.Sublist ((l.filterMap (PendingEntry.left c.now c.minIdle c.consumer)).map fun p => p.entry.1)
      (l.map fun p => p.entry.1) := by
  induction l with
  | nil => simp
  | cons p l ih =>
    rw [List.filterMap_cons, List.map_cons]
    cases hp : p.left c.now c.minIdle c.consumer with
    | none => exact ih.cons _
    | some x =>
      rw [List.map_cons, id_of_left hp]
      exact ih.cons_cons _

theorem sorted_rows (h : Sorted pending) : Sorted (c.rows pending) := by
  have hids : List.Sublist ((c.rows pending).map fun p => p.entry.1)
      (pending.map fun p => p.entry.1) := by
    conv => rhs; rw [c.eq_append pending]
    rw [rows, List.append_assoc, List.map_append, List.map_append, List.map_append, List.map_append]
    exact ((left_sublist c _).append_right _).append_left _
  have hsorted : (pending.map fun p => p.entry.1).Pairwise (· < ·) := List.pairwise_map.mpr h
  exact List.pairwise_map.mp (hsorted.sublist hids)

theorem Sorted.ids_nodup (h : Sorted pending) : (pending.map fun p => p.entry.1).Nodup := by
  have hsorted : (pending.map fun p => p.entry.1).Pairwise (· < ·) := List.pairwise_map.mpr h
  exact hsorted.imp fun hlt => hlt.ne

theorem Sorted.eq_of_id (h : Sorted pending) (hp : p ∈ pending) (hq : q ∈ pending)
    (hid : p.entry.1 = q.entry.1) : p = q :=
  List.inj_on_of_nodup_map h.ids_nodup hp hq hid

theorem Sorted.pairwise_iff (h : Sorted pending) (R : PendingEntry → PendingEntry → Prop) :
    pending.Pairwise R ↔ ∀ p ∈ pending, ∀ q ∈ pending, p.entry.1 < q.entry.1 → R p q := by
  induction pending with
  | nil => simp
  | cons a l ih =>
    obtain ⟨ha, hl⟩ := List.pairwise_cons.mp h
    rw [List.pairwise_cons, ih hl]
    constructor
    · rintro ⟨hfirst, hrest⟩ p hp q hq hlt
      rcases List.mem_cons.mp hp with rfl | hp'
      · rcases List.mem_cons.mp hq with rfl | hq'
        · exact absurd hlt (lt_irrefl _)
        · exact hfirst q hq'
      · rcases List.mem_cons.mp hq with rfl | hq'
        · exact absurd (hlt.trans (ha p hp')) (lt_irrefl _)
        · exact hrest p hp' q hq' hlt
    · intro hall
      exact ⟨fun q hq => hall a List.mem_cons_self q (List.mem_cons_of_mem a hq) (ha q hq),
        fun p hp q hq => hall p (List.mem_cons_of_mem a hp) q (List.mem_cons_of_mem a hq)⟩

/-! ### The entries that have been claimed -/

def Taken (c : Claim) (pending : List PendingEntry) (q : PendingEntry) : Prop :=
  q ∈ c.seen pending ∧ q.taken c.now c.minIdle = true

theorem mem_of_seen (hp : p ∈ c.seen pending) : p ∈ c.behind pending :=
  (reached_initial _ _ _ _ _).subset hp

theorem mem_of_behind (hp : p ∈ c.behind pending) : p ∈ pending :=
  List.dropWhile_subset _ hp

theorem left_of_taken (h : q.taken c.now c.minIdle = true) :
    q.left c.now c.minIdle c.consumer = some (q.claim c.now c.consumer) := by
  simp only [PendingEntry.taken, Bool.and_eq_true, Bool.not_eq_true'] at h
  simp [PendingEntry.left, h.1, h.2]

theorem lt_of_seen (h : Sorted pending) (hp : p ∈ c.seen pending)
    (hx : x ∈ (c.behind pending).drop (c.seen pending).length) : p.entry.1 < x.entry.1 := by
  have hall := c.eq_append pending
  rw [Sorted, hall, List.pairwise_append] at h
  exact (List.pairwise_append.mp h.2.1).2.2 p hp x hx

theorem row_of_taken (h : Sorted pending) (hq : c.Taken pending q) (hx : x ∈ c.rows pending)
    (hid : x.entry.1 = q.entry.1) : x = q.claim c.now c.consumer := by
  have hbehind : q ∈ c.behind pending := mem_of_seen hq.1
  rcases mem_rows.mp hx with hx | ⟨p, hp, hleft⟩ | hx
  · have hlt := lt_start hx
    rw [hid] at hlt
    exact absurd (start_le h hbehind) (not_le.mpr hlt)
  · have hpq : p = q := h.eq_of_id (mem_of_behind (mem_of_seen hp)) (mem_of_behind hbehind)
      ((id_of_left hleft).symm.trans hid)
    rw [hpq, left_of_taken hq.2] at hleft
    exact (Option.some.inj hleft).symm
  · have hlt := lt_of_seen h hq.1 hx
    rw [hid] at hlt
    exact absurd hlt (lt_irrefl _)

theorem claim_mem_own (hq : c.Taken pending q) : q.claim c.now c.consumer ∈ c.own (c.rows pending) := by
  have hrow : q.claim c.now c.consumer ∈ c.rows pending :=
    mem_rows.mpr (.inr (.inl ⟨q, hq.1, left_of_taken hq.2⟩))
  exact List.mem_filter.mpr ⟨hrow, by simp [PendingEntry.claim]⟩

/-- The id of a row has been claimed. -/
def claimed (c : Claim) (pending : List PendingEntry) (x : PendingEntry) : Bool :=
  decide (x.entry.1 ∈ (c.entries pending).map Prod.fst)

theorem claimed_iff : c.claimed pending x = true ↔ ∃ q, c.Taken pending q ∧ x.entry.1 = q.entry.1 := by
  rw [claimed, decide_eq_true_eq, entries]
  simp only [List.mem_map, List.mem_filter, Taken]
  constructor
  · rintro ⟨entry, ⟨q, hq, rfl⟩, hid⟩
    exact ⟨q, hq, hid.symm⟩
  · rintro ⟨q, hq, hid⟩
    exact ⟨q.entry, ⟨q, hq, rfl⟩, hid.symm⟩

theorem countP_claimed (h : Sorted pending) :
    (c.own (c.rows pending)).countP (c.claimed pending) = (c.entries pending).length := by
  have hseen : Sorted (c.seen pending) :=
    List.Pairwise.sublist ((reached_initial _ _ _ _ _).sublist.trans (List.dropWhile_sublist _)) h
  have hclaims : Sorted (((c.seen pending).filter (PendingEntry.taken c.now c.minIdle)).map
      fun q => q.claim c.now c.consumer) :=
    List.pairwise_map.mpr (List.Pairwise.sublist List.filter_sublist hseen)
  have hown : Sorted ((c.own (c.rows pending)).filter (c.claimed pending)) :=
    List.Pairwise.sublist (List.filter_sublist.trans List.filter_sublist) (sorted_rows h)
  have hperm : ((c.own (c.rows pending)).filter (c.claimed pending)).Perm
      (((c.seen pending).filter (PendingEntry.taken c.now c.minIdle)).map
        fun q => q.claim c.now c.consumer) := by
    apply (List.perm_ext_iff_of_nodup (hown.ids_nodup.of_map _) (hclaims.ids_nodup.of_map _)).mpr
    intro x
    simp only [List.mem_filter, claimed_iff, List.mem_map]
    constructor
    · rintro ⟨hx, q, hq, hid⟩
      exact ⟨q, hq, (row_of_taken h hq (List.mem_of_mem_filter hx) hid).symm⟩
    · rintro ⟨q, hq, rfl⟩
      exact ⟨claim_mem_own hq, q, hq, rfl⟩
  rw [List.countP_eq_length_filter, hperm.length_eq, entries, List.length_map, List.length_map]

theorem row_of_kept (hp : p ∈ pending)
    (hkept : p ∈ c.seen pending → ¬ (p.deleted = true ∨ p.idle c.now c.minIdle = true)) :
    p ∈ c.rows pending ∧ ¬ c.Taken pending p := by
  have haside (hseen : p ∈ c.seen pending) :
      p.deleted = false ∧ p.idle c.now c.minIdle = false := by
    simpa using hkept hseen
  constructor
  · have hmem := hp
    rw [c.eq_append pending, List.mem_append, List.mem_append] at hmem
    rw [mem_rows]
    rcases hmem with hbefore | hseen | hdrop
    · exact .inl hbefore
    · obtain ⟨hdeleted, hidle⟩ := haside hseen
      exact .inr (.inl ⟨p, hseen, by simp [PendingEntry.left, hdeleted, hidle]⟩)
    · exact .inr (.inr hdrop)
  · rintro ⟨hseen, htaken⟩
    simp [PendingEntry.taken, (haside hseen).2] at htaken

theorem claimed_before_iff (h : Sorted pending) (hq : c.Taken pending q) :
    (∀ x ∈ c.own (c.rows pending), x.entry.1 < q.entry.1 → c.claimed pending x = true) ↔
      ∀ p ∈ c.own pending, p.entry.1 < q.entry.1 →
        c.start ≤ p.entry.1 ∧ (p.deleted = true ∨ p.idle c.now c.minIdle = true) := by
  constructor
  · intro hall p hp hlt
    obtain ⟨hp, hconsumer⟩ := List.mem_filter.mp hp
    -- an entry that kept its row would have to be claimed
    have hmust : ¬ (p ∈ c.seen pending →
        ¬ (p.deleted = true ∨ p.idle c.now c.minIdle = true)) := by
      intro hkept
      obtain ⟨hrow, hnot⟩ := row_of_kept hp hkept
      obtain ⟨r, hr, hid⟩ := claimed_iff.mp
        (hall p (List.mem_filter.mpr ⟨hrow, hconsumer⟩) hlt)
      have hpr : p = r := h.eq_of_id hp (mem_of_behind (mem_of_seen hr.1)) hid
      exact hnot (hpr ▸ hr)
    obtain ⟨hseen, haside⟩ := Classical.not_imp.mp hmust
    exact ⟨start_le h (mem_of_seen hseen), not_not.mp haside⟩
  · intro haside x hx hlt
    obtain ⟨hx, hconsumer⟩ := List.mem_filter.mp hx
    rcases mem_rows.mp hx with hbefore | ⟨p, hp, hleft⟩ | hdrop
    · have hmem : x ∈ c.own pending :=
        List.mem_filter.mpr ⟨(List.takeWhile_subset _) hbefore, hconsumer⟩
      exact absurd (haside x hmem hlt).1 (not_le.mpr (lt_start hbefore))
    · rcases eq_of_left hleft with ⟨htaken, -⟩ | ⟨rfl, hneither⟩
      · exact claimed_iff.mpr ⟨p, ⟨hp, htaken⟩, id_of_left hleft⟩
      · have hmem : x ∈ c.own pending :=
          List.mem_filter.mpr ⟨mem_of_behind (mem_of_seen hp), hconsumer⟩
        exact absurd (haside x hmem hlt).2 hneither
    · exact absurd (hlt.trans (lt_of_seen h hq.1 hdrop)) (lt_irrefl _)

theorem noneAside_iff (h : Sorted pending) :
    (∀ q, c.Taken pending q →
      q.claim c.now c.consumer ∈ (c.own (c.rows pending)).take (c.entries pending).length) ↔
    c.NoneAside pending := by
  have hown : Sorted (c.own (c.rows pending)) :=
    List.Pairwise.sublist List.filter_sublist (sorted_rows h)
  have hfirst := mem_take_countP_iff (c.claimed pending) (hown.ids_nodup.of_map _)
  rw [countP_claimed h, hown.pairwise_iff] at hfirst
  have hmem : (∀ q, c.Taken pending q →
      q.claim c.now c.consumer ∈ (c.own (c.rows pending)).take (c.entries pending).length) ↔
      ∀ x ∈ c.own (c.rows pending), c.claimed pending x = true →
        x ∈ (c.own (c.rows pending)).take (c.entries pending).length := by
    constructor
    · intro hall x hx hclaimed
      obtain ⟨q, hq, hid⟩ := claimed_iff.mp hclaimed
      rw [row_of_taken h hq (List.mem_of_mem_filter hx) hid]
      exact hall q hq
    · intro hall q hq
      exact hall _ (claim_mem_own hq) (claimed_iff.mpr ⟨q, hq, rfl⟩)
  rw [hmem, hfirst]
  constructor
  · intro hall q hqseen hqtaken
    have hq : c.Taken pending q := ⟨hqseen, hqtaken⟩
    exact (claimed_before_iff h hq).mp fun x hx hlt =>
      hall x hx _ (claim_mem_own hq) hlt (claimed_iff.mpr ⟨q, hq, rfl⟩)
  · intro haside x hx y hy hlt hclaimed
    obtain ⟨q, hq, hid⟩ := claimed_iff.mp hclaimed
    rw [hid] at hlt
    exact (claimed_before_iff h hq).mpr (haside q hq.1 hq.2) x hx hlt

/-! ### The counts -/

theorem lookup_deliveries {l : List PendingEntry} (hl : Sorted l) {id : StreamId} {deliveries : ℕ} :
    (l.map fun p => (idText p.entry.1, p.deliveries)).lookup (idText id) = some deliveries ↔
      ∃ p ∈ l, p.entry.1 = id ∧ p.deliveries = deliveries := by
  induction l with
  | nil => simp
  | cons a l ih =>
    obtain ⟨ha, hl⟩ := List.pairwise_cons.mp hl
    rw [List.map_cons]
    by_cases hid : id = a.entry.1
    · rw [hid, List.lookup_cons_self]
      constructor
      · intro h
        exact ⟨a, List.mem_cons_self, rfl, Option.some.inj h⟩
      · rintro ⟨p, hp, hpid, hdeliveries⟩
        rcases List.mem_cons.mp hp with rfl | hp
        · rw [hdeliveries]
        · exact absurd hpid (ha p hp).ne'
    · have hne : (idText id == idText a.entry.1) = false :=
        beq_eq_false_iff_ne.mpr (idText_injective.ne hid)
      rw [List.lookup_cons, hne, ih hl]
      constructor
      · rintro ⟨p, hp, h⟩
        exact ⟨p, List.mem_cons_of_mem a hp, h⟩
      · rintro ⟨p, hp, hpid, hdeliveries⟩
        rcases List.mem_cons.mp hp with rfl | hp
        · exact absurd hpid.symm hid
        · exact ⟨p, hp, hpid, hdeliveries⟩

theorem countTrue_iff (h : Sorted pending) (hq : c.Taken pending q) (message : StreamMessage)
    (hid : message.messageId = idText q.entry.1) :
    c.CountTrue pending (message.claimed (c.pendingIdleTimes pending) (c.deliveryCounts pending)) ↔
      q.claim c.now c.consumer ∈ (c.own (c.rows pending)).take (c.entries pending).length := by
  have hown : Sorted ((c.own (c.rows pending)).take (c.entries pending).length) :=
    List.Pairwise.sublist ((List.take_sublist _ _).trans List.filter_sublist) (sorted_rows h)
  unfold CountTrue StreamMessage.claimed deliveryCounts
  dsimp only
  rw [hid]
  constructor
  · rintro ⟨p, -, -, hcount⟩
    obtain ⟨x, hx, hxid, -⟩ := (lookup_deliveries hown).mp hcount
    rw [← row_of_taken h hq (List.mem_of_mem_filter (List.mem_of_mem_take hx)) hxid]
    exact hx
  · intro hmem
    refine ⟨_, List.mem_of_mem_filter (claim_mem_own hq), rfl, ?_⟩
    exact (lookup_deliveries hown).mpr ⟨_, hmem, rfl, rfl⟩

/-- **The messages carry their delivery counts exactly when none of the consumer's entries was left aside
before one that has been claimed.** -/
theorem delivery_counts_iff (h : Sorted pending) {messages : List StreamMessage}
    (hmessages : c.messages pending = .ok messages) :
    (∀ message ∈ messages, c.CountTrue pending message) ↔ c.NoneAside pending := by
  have hmem (message : StreamMessage) : message ∈ messages ↔
      message ∈ received (claimPending c.stream (c.entries pending) (c.pendingIdleTimes pending)
        (c.deliveryCounts pending)) := by
    rw [Claim.messages] at hmessages
    rw [hmessages, received]
  rw [← noneAside_iff h]
  constructor
  · intro hall q hq
    have hentry : q.entry ∈ c.entries pending :=
      List.mem_map_of_mem (List.mem_filter.mpr hq)
    have hreadable : Readable c.stream (c.entries pending) := by
      obtain ⟨plain, hplain, -⟩ := bind_eq_ok.mp hmessages
      exact messagesOf_eq_ok_iff.mp ⟨plain, hplain⟩
    obtain ⟨task, htask⟩ := accepted_iff.mp (hreadable.2 q.entry hentry)
    have hmessage := (hmem _).mpr (mem_claimPending.mpr ⟨hreadable, q.entry, hentry, task, htask, rfl⟩)
    exact (countTrue_iff h hq _ rfl).mp (hall _ hmessage)
  · intro hall message hmessage
    obtain ⟨-, entry, hentry, task, -, rfl⟩ := mem_claimPending.mp ((hmem message).mp hmessage)
    obtain ⟨q, hq, rfl⟩ := List.mem_map.mp hentry
    have htaken : c.Taken pending q := List.mem_filter.mp hq
    exact (countTrue_iff h htaken _ rfl).mpr (hall q htaken)

/-! ### An entry left aside -/

/-- A round of `worker-2` for one message. -/
def demoClaim (now : ℕ) : Claim := ⟨demoSettings.streamName, now, "worker-2", 5000, toLex (0, 0), 1⟩

/-- `worker-2` was given the first entry a second ago; the second one waits with `worker-1`. -/
def heldAside : List PendingEntry :=
  [⟨demoEntry (toLex (1, 0)), "worker-2", 9000, 2⟩, ⟨demoEntry (toLex (2, 0)), "worker-1", 4000, 1⟩]

theorem sorted_heldAside : Sorted heldAside := by
  simp only [Sorted, heldAside, List.pairwise_cons]
  decide +kernel

theorem delivery_counts_iff_laterRound : ∃ messages, (demoClaim 14000).messages heldAside = .ok messages ∧
    messages.map StreamMessage.deliveryCount = [some 3] ∧
    ∀ message ∈ messages, (demoClaim 14000).CountTrue heldAside message := by
  have hcounts : ((demoClaim 14000).messages heldAside).map (List.map StreamMessage.deliveryCount) =
      .ok [some 3] := by decide +kernel
  cases hmessages : (demoClaim 14000).messages heldAside with
  | error e =>
    rw [hmessages] at hcounts
    cases hcounts
  | ok messages =>
    rw [hmessages] at hcounts
    refine ⟨messages, rfl, Except.ok.inj hcounts, ?_⟩
    exact (delivery_counts_iff sorted_heldAside hmessages).mpr (by decide +kernel)

/-- **The entry of another worker is claimed, the one of its own is counted**: the message comes back without
a delivery count, and Redis has recorded two. -/
theorem delivery_count_unavailable : ∃ message, (demoClaim 10000).messages heldAside = .ok [message] ∧
    message.messageId = idText (toLex (2, 0)) ∧ message.deliveryCount = none ∧
    (∃ p ∈ (demoClaim 10000).rows heldAside, p.entry.1 = toLex (2, 0) ∧ p.deliveries = 2) ∧
    ¬ (demoClaim 10000).CountTrue heldAside message := by
  have hcounts : ((demoClaim 10000).messages heldAside).map (List.map fun message =>
      (message.messageId, message.deliveryCount)) = .ok [(idText (toLex (2, 0)), none)] := by
    decide +kernel
  cases hmessages : (demoClaim 10000).messages heldAside with
  | error e =>
    rw [hmessages] at hcounts
    cases hcounts
  | ok messages =>
    rw [hmessages] at hcounts
    obtain ⟨message, rfl, hmessage⟩ := List.map_eq_singleton_iff.mp (Except.ok.inj hcounts)
    obtain ⟨hid, hnone⟩ := Prod.mk.inj hmessage
    refine ⟨message, rfl, hid, hnone, by decide +kernel, ?_⟩
    rintro ⟨p, -, -, hcount⟩
    rw [hnone] at hcount
    cases hcount

end Claim

end CountyFlow.Streams
