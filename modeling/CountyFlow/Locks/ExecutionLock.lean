import Mathlib.Data.List.Nodup
import CountyFlow.Lib.Runs
import CountyFlow.Lib.Watched
import CountyFlow.Security.Revocation

/-!
# The execution lock

`RedisExecutionLock` of `app/locks/redis_execution_lock.py`: any number of clients that acquire, renew and
release, on a Redis whose keys expire.  `acquire` is one command.  The others watch the key, read it, and send
their command in a transaction; where the key has changed in between, the client begins again.
-/

namespace CountyFlow.Locks

open CountyFlow.Lib
open CountyFlow.Security (RedisReply)

def lockKeyPrefix : String := "countyflow:lock:dispatch:"

structure LockHandle where
  key : String
  token : String
  acquired : Bool
  deriving DecidableEq, Repr

/-- The two calls with a handle; a renewal is for the time its client is configured with. -/
inductive LockOperation where
  | renew (ttlMs : ℤ)
  | release
  deriving DecidableEq, Repr

/-- The message of the `ExecutionLockError`. -/
def LockOperation.failure : LockOperation → String
  | .renew _ => "Redis execution lock renewal failed."
  | .release => "Redis execution lock release failed."

/-- A call of `renew` or `release`: between its commands it is where it is in the transaction. -/
inductive LockCall where
  | idle
  | begun (op : LockOperation) (handle : LockHandle)
  | watching (op : LockOperation) (handle : LockHandle) (mark : Mark)
  | compared (op : LockOperation) (handle : LockHandle) (mark : Mark) (equal : Bool)
  | returned (handle : LockHandle) (result : Except String Bool)

def LockCall.handle : LockCall → Option LockHandle
  | .begun _ handle | .watching _ handle _ | .compared _ handle _ _ => some handle
  | .idle | .returned _ _ => none

/-- The keys of Redis, the tokens that have been drawn, the handles that `acquire` has returned and the
calls. -/
structure LockSystem where
  keys : Watched String String
  tokens : List String
  handles : List LockHandle
  calls : ℕ → LockCall

/-- Who sends a command, with the reply; or time passes. -/
inductive LockAction where
  | acquire (idempotencyKey token : String) (ttlMs : ℤ) (reply : RedisReply)
  | call (p : ℕ) (op : LockOperation) (handle : LockHandle)
  | watch (p : ℕ) (reply : RedisReply)
  | get (p : ℕ) (reply : RedisReply)
  | exec (p : ℕ) (reply : RedisReply)
  | wait (d : ℕ)

def LockAction.caller : LockAction → Option ℕ
  | .watch p _ | .get p _ | .exec p _ => some p
  | .acquire _ _ _ _ | .call _ _ _ | .wait _ => none

/-- `SET key token NX PX ttl`. -/
def setNx (keys : Watched String String) (key token : String) (ttlMs : ℤ) : Bool × Watched String String :=
  match keys.get key with
  | some _ => (false, keys)
  | none => (true, keys.write key token (keys.now + ttlMs))

/-- `PEXPIRE key ttl` or `DEL key`. -/
def LockOperation.command (op : LockOperation) (key : String) (keys : Watched String String) :
    Watched String String :=
  match keys.get key with
  | none => keys
  | some value =>
    match op with
    | .renew ttlMs => keys.write key value (keys.now + ttlMs)
    | .release => keys.erase key

variable {key token : String} {a : LockAction} {call : LockCall} {handles : List LockHandle} {p : ℕ}
  {op : LockOperation}

namespace LockSystem

def initial (now : ℤ) : LockSystem := ⟨Watched.empty now, [], [], fun _ => .idle⟩

def setCall (s : LockSystem) (p : ℕ) (call : LockCall) : LockSystem :=
  { s with calls := Function.update s.calls p call }

/-- `acquire`, with a token that nobody has drawn before; Redis refuses a time that is not positive. -/
def acquire (s : LockSystem) (idempotencyKey token : String) (ttlMs : ℤ) (reply : RedisReply) : LockSystem :=
  let key := lockKeyPrefix ++ idempotencyKey
  let s := { s with tokens := token :: s.tokens }
  if reply = .failed ∨ ttlMs ≤ 0 then s
  else
    let result := setNx s.keys key token ttlMs
    if reply = .done then { s with keys := result.2, handles := ⟨key, token, result.1⟩ :: s.handles }
    else { s with keys := result.2 }

def transact (s : LockSystem) (p : ℕ) (op : LockOperation) (handle : LockHandle) (mark : Mark) (equal : Bool)
    (reply : RedisReply) : LockSystem :=
  if reply = .failed then s.setCall p (.returned handle (.error op.failure))
  else if s.keys.Unchanged handle.key mark then
    let s := if equal then { s with keys := op.command handle.key s.keys } else s
    s.setCall p (.returned handle (if reply = .done then .ok equal else .error op.failure))
  else s.setCall p (if reply = .done then .begun op handle else .returned handle (.error op.failure))

/-- The state after an action, `none` when it is not enabled. -/
def step (s : LockSystem) : LockAction → Option LockSystem
  | .acquire idempotencyKey token ttlMs reply =>
    if token ∈ s.tokens then none else some (s.acquire idempotencyKey token ttlMs reply)
  | .call p op handle =>
    match s.calls p with
    | .idle =>
      if handle ∈ s.handles then
        some (s.setCall p (if handle.acquired then .begun op handle else .returned handle (.ok false)))
      else none
    | _ => none
  | .watch p reply =>
    match s.calls p with
    | .begun op handle =>
      some (s.setCall p (if reply = .done then .watching op handle (s.keys.mark handle.key)
        else .returned handle (.error op.failure)))
    | _ => none
  | .get p reply =>
    match s.calls p with
    | .watching op handle mark =>
      some (s.setCall p (if reply = .done then
          .compared op handle mark (decide (s.keys.get handle.key = some handle.token))
        else .returned handle (.error op.failure)))
    | _ => none
  | .exec p reply =>
    match s.calls p with
    | .compared op handle mark equal => some (s.transact p op handle mark equal reply)
    | _ => none
  | .wait d => some { s with keys := s.keys.wait d }

def Stores (s : LockSystem) (handle : LockHandle) : Prop := s.keys.get handle.key = some handle.token

instance (s : LockSystem) (handle : LockHandle) : Decidable (s.Stores handle) := by
  unfold Stores
  infer_instance

/-- The lock of a handle ends: its own release, its own renewal for no time, or time. -/
def Ends (s : LockSystem) (handle : LockHandle) : LockAction → Prop
  | .exec p _ => ∃ op mark, s.calls p = .compared op handle mark true ∧
      (op = .release ∨ ∃ ttlMs, ttlMs ≤ 0 ∧ op = .renew ttlMs)
  | .wait d => (s.keys.wait d).get handle.key = none
  | _ => False

/-! ### The commands -/

theorem setNx_eq {keys : Watched String String} {key token : String} {ttlMs : ℤ} :
    keys.get key ≠ none ∧ setNx keys key token ttlMs = (false, keys) ∨
      keys.get key = none ∧ setNx keys key token ttlMs = (true, keys.write key token (keys.now + ttlMs)) := by
  unfold setNx
  cases h : keys.get key with
  | none => exact .inr ⟨rfl, rfl⟩
  | some v => exact .inl ⟨Option.some_ne_none v, rfl⟩

theorem later_command (op : LockOperation) (keys : Watched String String) (key key' : String) :
    Watched.Later keys (op.command key keys) key' := by
  unfold LockOperation.command
  cases keys.get key with
  | none => exact .refl keys key'
  | some v =>
    cases op with
    | renew ttlMs => exact Watched.later_write keys key key' v _
    | release => exact Watched.later_erase keys key key'

theorem get_command (op : LockOperation) (keys : Watched String String) (key key' : String) :
    (op.command key keys).get key' = keys.get key' ∨ key' = key ∧ (op.command key keys).get key' = none := by
  unfold LockOperation.command
  cases h : keys.get key with
  | none => exact .inl rfl
  | some v =>
    by_cases hkey : key' = key
    · cases op with
      | renew ttlMs =>
        show (keys.write key v (keys.now + ttlMs)).get key' = _ ∨ _ ∧
          (keys.write key v (keys.now + ttlMs)).get key' = _
        rw [Watched.get_write, if_pos hkey, hkey, h]
        by_cases httl : keys.now < keys.now + ttlMs
        · exact .inl (if_pos httl)
        · exact .inr ⟨rfl, if_neg httl⟩
      | release =>
        refine .inr ⟨hkey, ?_⟩
        show (keys.erase key).get key' = none
        rw [Watched.get_erase, if_pos hkey]
    · cases op with
      | renew ttlMs =>
        refine .inl ?_
        show (keys.write key v (keys.now + ttlMs)).get key' = _
        rw [Watched.get_write, if_neg hkey]
      | release =>
        refine .inl ?_
        show (keys.erase key).get key' = _
        rw [Watched.get_erase, if_neg hkey]

variable {keys : Watched String String}

theorem get_renew {ttlMs : ℤ} (httl : 0 < ttlMs) {v : String} (h : keys.get key = some v) :
    ((LockOperation.renew ttlMs).command key keys).get key = some v := by
  unfold LockOperation.command
  rw [h]
  show (keys.write key v (keys.now + ttlMs)).get key = some v
  rw [Watched.get_write, if_pos rfl, if_pos (by omega)]

/-! ### The steps -/

inductive Acquired (s : LockSystem) (key token : String) : Watched String String → List LockHandle → Prop
  | failed : Acquired s key token s.keys s.handles
  | refused (hget : s.keys.get key ≠ none) : Acquired s key token s.keys (⟨key, token, false⟩ :: s.handles)
  | stored (deadline : ℤ) (hget : s.keys.get key = none) (htime : s.keys.now < deadline) :
      Acquired s key token (s.keys.write key token deadline) (⟨key, token, true⟩ :: s.handles)
  | lost (deadline : ℤ) (hget : s.keys.get key = none) :
      Acquired s key token (s.keys.write key token deadline) s.handles

theorem acquire_moves (s : LockSystem) (idempotencyKey token : String) (ttlMs : ℤ) (reply : RedisReply) :
    ∃ keys handles, Acquired s (lockKeyPrefix ++ idempotencyKey) token keys handles ∧
      s.acquire idempotencyKey token ttlMs reply = ⟨keys, token :: s.tokens, handles, s.calls⟩ := by
  unfold acquire
  by_cases hfailed : reply = .failed ∨ ttlMs ≤ 0
  · exact ⟨_, _, .failed, if_pos hfailed⟩
  rw [if_neg hfailed]
  have httl : 0 < ttlMs := by omega
  rcases @setNx_eq s.keys (lockKeyPrefix ++ idempotencyKey) token ttlMs with ⟨hget, h⟩ | ⟨hget, h⟩
  · show ∃ keys handles, _ ∧ (if reply = .done then _ else _) = _
    by_cases hdone : reply = .done
    · exact ⟨_, _, .refused hget, by rw [if_pos hdone, h]⟩
    · exact ⟨_, _, .failed, by rw [if_neg hdone, h]⟩
  · show ∃ keys handles, _ ∧ (if reply = .done then _ else _) = _
    by_cases hdone : reply = .done
    · exact ⟨_, _, .stored (s.keys.now + ttlMs) hget (by omega), by rw [if_pos hdone, h]⟩
    · exact ⟨_, _, .lost _ hget, by rw [if_neg hdone, h]⟩

inductive Transacted (s : LockSystem) (op : LockOperation) (handle : LockHandle) (mark : Mark)
    (equal : Bool) :
    Watched String String → LockCall → Prop
  | failed (e : String) : Transacted s op handle mark equal s.keys (.returned handle (.error e))
  | again (hchanged : ¬ s.keys.Unchanged handle.key mark) :
      Transacted s op handle mark equal s.keys (.begun op handle)
  | unequal (hequal : equal = false) : Transacted s op handle mark equal s.keys (.returned handle (.ok false))
  | sent (hequal : equal = true) (hsame : s.keys.Unchanged handle.key mark) (result : Except String Bool) :
      Transacted s op handle mark equal (op.command handle.key s.keys) (.returned handle result)

theorem transact_moves (s : LockSystem) (p : ℕ) (op : LockOperation) (handle : LockHandle) (mark : Mark)
    (equal : Bool) (reply : RedisReply) : ∃ keys call, Transacted s op handle mark equal keys call ∧
      s.transact p op handle mark equal reply = ⟨keys, s.tokens, s.handles,
      Function.update s.calls p call⟩ := by
  unfold transact
  by_cases hfailed : reply = .failed
  · exact ⟨_, _, .failed _, if_pos hfailed⟩
  rw [if_neg hfailed]
  by_cases hsame : s.keys.Unchanged handle.key mark
  · rw [if_pos hsame]
    cases hequal : equal with
    | true => exact ⟨_, _, .sent rfl hsame _, rfl⟩
    | false =>
      by_cases hdone : reply = .done
      · exact ⟨_, _, .unequal rfl, by rw [if_pos hdone]; rfl⟩
      · exact ⟨_, _, .failed _, by rw [if_neg hdone]; rfl⟩
  · rw [if_neg hsame]
    by_cases hdone : reply = .done
    · exact ⟨_, _, .again hsame, by rw [if_pos hdone]; rfl⟩
    · exact ⟨_, _, .failed _, by rw [if_neg hdone]; rfl⟩

inductive Moves (s : LockSystem) : LockAction → LockSystem → Prop
  | acquire {idempotencyKey token : String} {ttlMs : ℤ} {reply : RedisReply} {keys : Watched String String}
      {handles : List LockHandle} (hfresh : token ∉ s.tokens)
      (hm : Acquired s (lockKeyPrefix ++ idempotencyKey) token keys handles) :
      Moves s (.acquire idempotencyKey token ttlMs reply) ⟨keys, token :: s.tokens, handles, s.calls⟩
  | call {p : ℕ} {op : LockOperation} {handle : LockHandle} {call : LockCall} (hp : s.calls p = .idle)
      (hmem : handle ∈ s.handles) (hcall : call = .begun op handle ∨ call = .returned handle (.ok false)) :
      Moves s (.call p op handle) (s.setCall p call)
  | watch {p : ℕ} {op : LockOperation} {handle : LockHandle} {reply : RedisReply} {call : LockCall}
      (hp : s.calls p = .begun op handle)
      (hcall : call = .watching op handle (s.keys.mark handle.key) ∨ ∃ e,
        call = .returned handle (.error e)) :
      Moves s (.watch p reply) (s.setCall p call)
  | get {p : ℕ} {op : LockOperation} {handle : LockHandle} {mark : Mark} {reply : RedisReply}
      {call : LockCall} (hp : s.calls p = .watching op handle mark)
      (hcall : call = .compared op handle mark (decide (s.Stores handle)) ∨ ∃ e,
        call = .returned handle (.error e)) :
      Moves s (.get p reply) (s.setCall p call)
  | exec {p : ℕ} {op : LockOperation} {handle : LockHandle} {mark : Mark} {equal : Bool} {reply : RedisReply}
      {keys : Watched String String} {call : LockCall} (hp : s.calls p = .compared op handle mark equal)
      (hm : Transacted s op handle mark equal keys call) :
      Moves s (.exec p reply) ⟨keys, s.tokens, s.handles, Function.update s.calls p call⟩
  | wait (d : ℕ) : Moves s (.wait d) { s with keys := s.keys.wait d }

variable {s : LockSystem}

variable {s' : LockSystem}

/-- All that an action on the locks can do. -/
theorem step_moves (h : step s a = some s') : Moves s a s' := by
  cases a with
  | acquire idempotencyKey token ttlMs reply =>
    rw [step] at h
    split at h
    · cases h
    · rename_i hfresh
      cases h
      obtain ⟨keys, handles, hm, heq⟩ := acquire_moves s idempotencyKey token ttlMs reply
      rw [heq]
      exact .acquire hfresh hm
  | call p op handle =>
    rw [step] at h
    split at h
    · rename_i hp
      split at h
      · rename_i hmem
        cases h
        refine .call hp hmem ?_
        by_cases hacquired : handle.acquired = true
        · exact .inl (if_pos hacquired)
        · exact .inr (if_neg hacquired)
      · cases h
    · cases h
  | watch p reply =>
    rw [step] at h
    split at h
    · rename_i op handle hp
      cases h
      refine .watch hp ?_
      by_cases hdone : reply = .done
      · exact .inl (if_pos hdone)
      · exact .inr ⟨_, if_neg hdone⟩
    · cases h
  | get p reply =>
    rw [step] at h
    split at h
    · rename_i op handle mark hp
      cases h
      refine .get hp ?_
      by_cases hdone : reply = .done
      · exact .inl (if_pos hdone)
      · exact .inr ⟨_, if_neg hdone⟩
    · cases h
  | exec p reply =>
    rw [step] at h
    split at h
    · rename_i op handle mark equal hp
      cases h
      obtain ⟨keys, call, hm, heq⟩ := transact_moves s p op handle mark equal reply
      rw [heq]
      exact .exec hp hm
    · cases h
  | wait d =>
    cases h
    exact .wait d

/-! ### The invariant -/

def CallKept (keys : Watched String String) : LockCall → Prop
  | .watching _ handle mark => keys.Noted handle.key mark
  | .compared _ handle mark equal => equal = true → keys.Seen handle.key mark handle.token
  | _ => True

/-- Handles have tokens of their own, and a call goes by what it has read. -/
structure Kept (s : LockSystem) : Prop where
  drawn : ∀ handle ∈ s.handles, handle.token ∈ s.tokens
  distinct : (s.handles.map LockHandle.token).Nodup
  known : ∀ p handle, (s.calls p).handle = some handle → handle ∈ s.handles
  calls : ∀ p, CallKept s.keys (s.calls p)

theorem initial_kept (now : ℤ) : Kept (initial now) := ⟨nofun, List.nodup_nil, nofun, fun _ => trivial⟩

theorem CallKept.later {keys' : Watched String String} (h : CallKept keys call)
    (hlater : ∀ key, Watched.Later keys keys' key) : CallKept keys' call := by
  cases call with
  | watching op handle mark => exact Watched.Noted.later h (hlater handle.key)
  | compared op handle mark equal => exact fun hequal => (h hequal).later (hlater handle.key)
  | idle => trivial
  | begun op handle => trivial
  | returned handle result => trivial

theorem Kept.update (h : Kept s) (hlater : ∀ key, Watched.Later s.keys keys key) (p : ℕ)
    (hcall : CallKept keys call) (hknown : ∀ handle, call.handle = some handle → handle ∈ s.handles) :
    Kept ⟨keys, s.tokens, s.handles, Function.update s.calls p call⟩ := by
  refine ⟨h.drawn, h.distinct, fun q handle hq => ?_, fun q => ?_⟩
  · have hcall : (Function.update s.calls p call q).handle = some handle := hq
    by_cases hpq : q = p
    · subst hpq
      rw [Function.update_self] at hcall
      exact hknown handle hcall
    · rw [Function.update_of_ne hpq] at hcall
      exact h.known q handle hcall
  · show CallKept keys (Function.update s.calls p call q)
    by_cases hpq : q = p
    · subst hpq
      rwa [Function.update_self]
    · rw [Function.update_of_ne hpq]
      exact (h.calls q).later hlater

theorem Kept.acquired (h : Kept s) (hfresh : token ∉ s.tokens) (hm : Acquired s key token keys handles) :
    Kept ⟨keys, token :: s.tokens, handles, s.calls⟩ := by
  have hlater : ∀ key', Watched.Later s.keys keys key' := by
    intro key'
    cases hm with
    | failed => exact .refl s.keys key'
    | refused => exact .refl s.keys key'
    | stored deadline => exact Watched.later_write s.keys key key' token deadline
    | lost deadline => exact Watched.later_write s.keys key key' token deadline
  have hhandles : handles = s.handles ∨ ∃ acquired, handles = ⟨key, token, acquired⟩ :: s.handles := by
    cases hm with
    | failed => exact .inl rfl
    | refused => exact .inr ⟨false, rfl⟩
    | stored => exact .inr ⟨true, rfl⟩
    | lost => exact .inl rfl
  have hcalls : ∀ p, CallKept keys (s.calls p) := fun p => (h.calls p).later hlater
  rcases hhandles with rfl | ⟨acquired, rfl⟩
  · exact ⟨fun a ha => List.mem_cons_of_mem _ (h.drawn a ha), h.distinct, h.known, hcalls⟩
  refine ⟨fun a ha => ?_, ?_, fun p a hp => List.mem_cons_of_mem _ (h.known p a hp), hcalls⟩
  · rcases List.mem_cons.mp ha with rfl | ha
    · exact List.mem_cons_self
    · exact List.mem_cons_of_mem _ (h.drawn a ha)
  · refine List.nodup_cons.mpr ⟨fun hmem => hfresh ?_, h.distinct⟩
    obtain ⟨a, ha, htoken⟩ := List.mem_map.mp hmem
    have hdrawn := h.drawn a ha
    rwa [htoken] at hdrawn

/-- The tokens stay different, and a call goes by what it has read. -/
theorem step_kept (h : Kept s) (hstep : step s a = some s') : Kept s' := by
  have hrefl : ∀ key, Watched.Later s.keys s.keys key := Watched.Later.refl s.keys
  cases step_moves hstep with
  | acquire hfresh hm => exact h.acquired hfresh hm
  | @call p op handle call hp hmem hcall =>
    rcases hcall with rfl | rfl
    · exact h.update hrefl p trivial fun a ha => by rwa [← Option.some.inj ha]
    · exact h.update hrefl p trivial nofun
  | @watch p op handle reply call hp hcall =>
    rcases hcall with rfl | ⟨e, rfl⟩
    · exact h.update hrefl p (Watched.noted_mark s.keys handle.key) fun a ha =>
        h.known p a (by rw [hp]; exact ha)
    · exact h.update hrefl p trivial nofun
  | @get p op handle mark reply call hp hcall =>
    rcases hcall with rfl | ⟨e, rfl⟩
    · have hnoted := h.calls p
      rw [hp] at hnoted
      refine h.update hrefl p (fun hequal => ?_) fun a ha => h.known p a (by rw [hp]; exact ha)
      exact Watched.Noted.seen hnoted (of_decide_eq_true hequal)
    · exact h.update hrefl p trivial nofun
  | @exec p op handle mark equal reply keys call hp hm =>
    have hmem : handle ∈ s.handles := h.known p handle (by rw [hp]; rfl)
    cases hm with
    | failed e => exact h.update hrefl p trivial nofun
    | again => exact h.update hrefl p trivial fun a ha => by rwa [← Option.some.inj ha]
    | unequal => exact h.update hrefl p trivial nofun
    | sent => exact h.update (later_command op s.keys handle.key) p trivial nofun
  | wait d => exact ⟨h.drawn, h.distinct, h.known, fun p => (h.calls p).later (Watched.later_wait s.keys d)⟩

/-! ### Stored tokens -/

theorem Kept.handle_eq (h : Kept s) {a b : LockHandle} (ha : a ∈ s.handles) (hb : b ∈ s.handles)
    (htoken : a.token = b.token) : a = b := List.inj_on_of_nodup_map h.distinct ha hb htoken

variable {handle : LockHandle}

theorem Kept.sent_stores (h : Kept s) {mark : Mark} (hp : s.calls p = .compared op handle mark true)
    (hsame : s.keys.Unchanged handle.key mark) : s.Stores handle := by
  have hseen := h.calls p
  rw [hp] at hseen
  exact (hseen rfl).get hsame

theorem get_acquired (hm : Acquired s key token keys handles) (key' : String) :
    keys.get key' = s.keys.get key' ∨ s.keys.get key' = none ∧
    (keys.get key' = some token ∨ keys.get key' = none) := by
  have hwrite : ∀ deadline, s.keys.get key = none → (s.keys.write key token deadline).get key' =
    s.keys.get key' ∨
      s.keys.get key' = none ∧ ((s.keys.write key token deadline).get key' = some token ∨
        (s.keys.write key token deadline).get key' = none) := by
    intro deadline hget
    rw [Watched.get_write]
    by_cases hkey : key' = key
    · rw [if_pos hkey, hkey]
      refine .inr ⟨hget, ?_⟩
      by_cases htime : s.keys.now < deadline
      · exact .inl (if_pos htime)
      · exact .inr (if_neg htime)
    · exact .inl (if_neg hkey)
  cases hm with
  | failed => exact .inl rfl
  | refused => exact .inl rfl
  | stored deadline hget => exact hwrite deadline hget
  | lost deadline hget => exact hwrite deadline hget

theorem handles_of_step (hstep : step s a = some s') (hmem : handle ∈ s.handles) : handle ∈ s'.handles := by
  cases step_moves hstep with
  | acquire hfresh hm =>
    cases hm with
    | failed => exact hmem
    | refused => exact List.mem_cons_of_mem _ hmem
    | stored => exact List.mem_cons_of_mem _ hmem
    | lost => exact hmem
  | call => exact hmem
  | watch => exact hmem
  | get => exact hmem
  | exec => exact hmem
  | wait d => exact hmem

/-- A handle that has lost its key does not get it back. -/
theorem step_not_stored (h : Kept s) (hstep : step s a = some s') (hmem : handle ∈ s.handles)
    (hnot : ¬ s.Stores handle) : ¬ s'.Stores handle := by
  intro hstores
  cases step_moves hstep with
  | @acquire idempotencyKey token ttlMs reply keys handles hfresh hm =>
    have hget : keys.get handle.key = some handle.token := hstores
    rcases get_acquired hm handle.key with hsame | ⟨-, hnew | hnone⟩
    · exact hnot (hsame.symm.trans hget)
    · rw [hget] at hnew
      exact hfresh (Option.some.inj hnew ▸ h.drawn handle hmem)
    · rw [hget] at hnone
      cases hnone
  | call => exact hnot hstores
  | watch => exact hnot hstores
  | get => exact hnot hstores
  | @exec p op handle' mark equal reply keys call hp hm =>
    have hget : keys.get handle.key = some handle.token := hstores
    cases hm with
    | failed => exact hnot hget
    | again => exact hnot hget
    | unequal => exact hnot hget
    | sent =>
      rcases get_command op s.keys handle'.key handle.key with hsame | ⟨-, hnone⟩
      · exact hnot (hsame.symm.trans hget)
      · rw [hget] at hnone
        cases hnone
  | wait d => exact hnot (Watched.get_of_wait hstores)

/-- A lock stays stored through a step that does not end it, and nobody else gets its key. -/
theorem step_stored (h : Kept s) (hstep : step s a = some s') (hmem : handle ∈ s.handles)
    (hstores : s.Stores handle) (hends : ¬ s.Ends handle a) :
    s'.Stores handle ∧ ∀ other ∈ s'.handles, other.key = handle.key → other.acquired = true →
      other ∈ s.handles := by
  cases step_moves hstep with
  | @acquire idempotencyKey token ttlMs reply keys handles hfresh hm =>
    refine ⟨?_, fun other hother hkey hacquired => ?_⟩
    · rcases get_acquired hm handle.key with hsame | ⟨hnone, -⟩
      · exact hsame.trans hstores
      · rw [show s.keys.get handle.key = some handle.token from hstores] at hnone
        cases hnone
    · cases hm with
      | failed => exact hother
      | refused hget =>
        rcases List.mem_cons.mp hother with rfl | hother
        · cases hacquired
        · exact hother
      | stored deadline hget =>
        rcases List.mem_cons.mp hother with rfl | hother
        · rw [show lockKeyPrefix ++ idempotencyKey = handle.key from hkey,
            show s.keys.get handle.key = _ from hstores]
            at hget
          cases hget
        · exact hother
      | lost => exact hother
  | call => exact ⟨hstores, fun _ hother _ _ => hother⟩
  | watch => exact ⟨hstores, fun _ hother _ _ => hother⟩
  | get => exact ⟨hstores, fun _ hother _ _ => hother⟩
  | @exec p op handle' mark equal reply keys call hp hm =>
    refine ⟨?_, fun _ hother _ _ => hother⟩
    cases hm with
    | failed => exact hstores
    | again => exact hstores
    | unequal => exact hstores
    | sent hequal hsame =>
      subst hequal
      rcases get_command op s.keys handle'.key handle.key with hkept | ⟨hkey, -⟩
      · exact hkept.trans hstores
      -- The command is for the same key, so for the same handle, and it is no release of it.
      have hown := h.sent_stores hp hsame
      have htoken : handle'.token = handle.token := by
        have hget : s.keys.get handle'.key = some handle'.token := hown
        rw [← hkey, show s.keys.get handle.key = _ from hstores] at hget
        exact (Option.some.inj hget).symm
      obtain rfl := h.handle_eq (h.known p handle' (by rw [hp]; rfl)) hmem htoken
      cases op with
      | release => exact absurd ⟨.release, mark, hp, .inl rfl⟩ hends
      | renew ttlMs =>
        by_cases httl : ttlMs ≤ 0
        · exact absurd ⟨.renew ttlMs, mark, hp, .inr ⟨ttlMs, httl, rfl⟩⟩ hends
        · exact get_renew (by omega) hstores
  | wait d =>
    refine ⟨?_, fun _ hother _ _ => hother⟩
    rcases Watched.get_wait (d := d) hstores with hkept | hnone
    · exact hkept
    · exact absurd hnone hends

/-! ### Calls without the lock -/

/-- The call of a handle, also when it has returned. -/
def Concerns (s : LockSystem) (p : ℕ) (handle : LockHandle) : Prop :=
  (s.calls p).handle = some handle ∨ ∃ result, s.calls p = .returned handle result

/-- A step of a call leaves the keys as they are, and the call returns `False` if it returns. -/
def Powerless (s : LockSystem) (p : ℕ) (handle : LockHandle) (a : LockAction) : Prop :=
  a.caller = some p → ∀ s', step s a = some s' → s'.keys = s.keys ∧
    ∀ result, s'.calls p = .returned handle result → result = .ok false ∨ ∃ e, result = .error e

theorem Concerns.handle_eq {other : LockHandle} (h : s.Concerns p handle)
    (hp : (s.calls p).handle = some other) : other = handle := by
  rcases h with h | ⟨result, h⟩
  · rw [h] at hp
    exact (Option.some.inj hp).symm
  · rw [h] at hp
    cases hp

theorem concerns_setCall {s : LockSystem} {p q : ℕ} {handle : LockHandle} {call : LockCall}
    (h : s.Concerns p handle)
    (hcall : p = q → call.handle = some handle ∨ ∃ result, call = .returned handle result) :
    (s.setCall q call).Concerns p handle := by
  unfold Concerns setCall
  by_cases hq : p = q
  · subst hq
    simp only [Function.update_self]
    exact hcall rfl
  · simp only [Function.update_of_ne hq]
    exact h

/-- The call of a handle stays with it, also behind its return. -/
theorem step_concerns (hstep : step s a = some s') (h : s.Concerns p handle) : s'.Concerns p handle := by
  cases step_moves hstep with
  | acquire => exact h
  | @call q op other call hq =>
    refine concerns_setCall h fun hpq => ?_
    subst hpq
    rcases h with h | ⟨result, h⟩ <;> rw [hq] at h <;> cases h
  | @watch q op other reply call hq hcall =>
    refine concerns_setCall h fun hpq => ?_
    subst hpq
    obtain rfl := h.handle_eq (by rw [hq]; rfl)
    rcases hcall with rfl | ⟨e, rfl⟩
    · exact .inl rfl
    · exact .inr ⟨_, rfl⟩
  | @get q op other mark reply call hq hcall =>
    refine concerns_setCall h fun hpq => ?_
    subst hpq
    obtain rfl := h.handle_eq (by rw [hq]; rfl)
    rcases hcall with rfl | ⟨e, rfl⟩
    · exact .inl rfl
    · exact .inr ⟨_, rfl⟩
  | @exec q op other mark equal reply keys call hq hm =>
    refine @concerns_setCall s p q handle call h fun hpq => ?_
    subst hpq
    obtain rfl := h.handle_eq (by rw [hq]; rfl)
    cases hm with
    | failed => exact .inr ⟨_, rfl⟩
    | again => exact .inl rfl
    | unequal => exact .inr ⟨_, rfl⟩
    | sent => exact .inr ⟨_, rfl⟩
  | wait => exact h

theorem powerless_of_not_stored (hs : Kept s) (h : s.Concerns p handle) (hnot : ¬ s.Stores handle)
    (a : LockAction) : s.Powerless p handle a := by
  intro hcaller s' hstep
  cases step_moves hstep with
  | acquire => cases hcaller
  | call => cases hcaller
  | @watch q op other reply call hq hcall =>
    obtain rfl := Option.some.inj hcaller
    refine ⟨rfl, fun result hresult => ?_⟩
    rw [show (s.setCall q call).calls q = call from Function.update_self ..] at hresult
    rcases hcall with rfl | ⟨e, rfl⟩
    · cases hresult
    · cases hresult
      exact .inr ⟨e, rfl⟩
  | @get q op other mark reply call hq hcall =>
    obtain rfl := Option.some.inj hcaller
    refine ⟨rfl, fun result hresult => ?_⟩
    rw [show (s.setCall q call).calls q = call from Function.update_self ..] at hresult
    rcases hcall with rfl | ⟨e, rfl⟩
    · cases hresult
    · cases hresult
      exact .inr ⟨e, rfl⟩
  | @exec q op other mark equal reply keys call hq hm =>
    obtain rfl := Option.some.inj hcaller
    obtain rfl := h.handle_eq (by rw [hq]; rfl)
    have hcalls : (Function.update s.calls q call) q = call := Function.update_self ..
    cases hm with
    | failed e =>
      refine ⟨rfl, fun result hresult => .inr ⟨e, ?_⟩⟩
      cases hcalls.symm.trans hresult
      rfl
    | again => exact ⟨rfl, fun result hresult => by cases hcalls.symm.trans hresult⟩
    | unequal =>
      refine ⟨rfl, fun result hresult => .inl ?_⟩
      cases hcalls.symm.trans hresult
      rfl
    | sent hequal hsame =>
      subst hequal
      exact absurd (hs.sent_stores hq hsame) hnot
  | wait => cases hcaller

theorem returns_false (hp : s.calls p = .begun op handle) (hnot : ¬ s.Stores handle) :
    ∃ s', exec step s [.watch p .done, .get p .done, .exec p .done] = some s' ∧ s'.keys = s.keys ∧
      s'.calls p = .returned handle (.ok false) := by
  have hget : decide (s.keys.get handle.key = some handle.token) = false := decide_eq_false hnot
  have hsame : s.keys.Unchanged handle.key (s.keys.mark handle.key) := ⟨rfl, fun h => h⟩
  refine ⟨⟨s.keys, s.tokens, s.handles, Function.update s.calls p (.returned handle (.ok false))⟩, ?_, rfl,
    Function.update_self ..⟩
  simp [exec, step, hp, setCall, transact, hget, hsame]

/-! ### Every run -/

/-- No acquisition of the key of a handle succeeds. -/
def NoOther (handle : LockHandle) (s : LockSystem) (a : LockAction) : Prop :=
  ∀ s', step s a = some s' →
    ∀ other ∈ s'.handles, other.key = handle.key → other.acquired = true → other ∈ s.handles

/-- What holds of the lock in a state, and of all that may follow. -/
structure Undisputed (s : LockSystem) : Prop where
  /-- Of the handles of a key, the token of one at most is stored. -/
  single : ∀ a ∈ s.handles, ∀ b ∈ s.handles, a.key = b.key → s.Stores a → s.Stores b → a = b
  /-- A call begins with its handle; without an acquired one it returns at once. -/
  begins : ∀ p op handle s', step s (.call p op handle) = some s' → s'.keys = s.keys ∧ s'.Concerns p handle ∧
    (handle.acquired = false → s'.calls p = .returned handle (.ok false))
  /-- Once the token is not stored, the call leaves the keys and their expiry as they are, and returns
  `False`. -/
  powerless : ∀ p handle, handle ∈ s.handles → s.Concerns p handle → ¬ s.Stores handle →
    (∀ run, Meets step (fun s' a => s'.Powerless p handle a) s run) ∧
      ∀ op, s.calls p = .begun op handle →
        ∃ s', exec step s [.watch p .done, .get p .done, .exec p .done] = some s' ∧ s'.keys = s.keys ∧
          s'.calls p = .returned handle (.ok false)
  /-- After a successful acquisition the token is stored and no other one succeeds, until its own release or
  expiry. -/
  held : ∀ a s' handle, step s a = some s' → handle ∈ s'.handles → handle ∉ s.handles →
    handle.acquired = true → s'.Stores handle ∧ ∀ run, Meets step (fun s'' a => ¬ s''.Ends handle a) s' run →
      Meets step (NoOther handle) s' run ∧ ∀ s'', exec step s' run = some s'' → s''.Stores handle

theorem stores_of_new (hstep : step s a = some s') (hmem : handle ∈ s'.handles) (hnew : handle ∉ s.handles)
    (hacquired : handle.acquired = true) : s'.Stores handle := by
  cases step_moves hstep with
  | acquire hfresh hm =>
    cases hm with
    | failed => exact absurd hmem hnew
    | refused =>
      rcases List.mem_cons.mp hmem with rfl | hmem
      · cases hacquired
      · exact absurd hmem hnew
    | stored deadline hget htime =>
      rcases List.mem_cons.mp hmem with rfl | hmem
      · show (s.keys.write _ _ deadline).get _ = _
        rw [Watched.get_write, if_pos rfl, if_pos htime]
      · exact absurd hmem hnew
    | lost => exact absurd hmem hnew
  | call => exact absurd hmem hnew
  | watch => exact absurd hmem hnew
  | get => exact absurd hmem hnew
  | exec => exact absurd hmem hnew
  | wait => exact absurd hmem hnew

theorem Kept.undisputed (h : Kept s) : Undisputed s where
  single a ha b hb hkey hstoresa hstoresb := by
    refine h.handle_eq ha hb (Option.some.inj ?_)
    rw [← show s.keys.get a.key = _ from hstoresa, ← show s.keys.get b.key = _ from hstoresb, hkey]
  begins p op handle s' hstep := by
    rw [step] at hstep
    split at hstep
    · split at hstep
      · cases hstep
        have hcalls : ∀ call, (s.setCall p call).calls p = call := fun call => Function.update_self ..
        unfold Concerns
        rw [hcalls]
        refine ⟨rfl, ?_, fun hacquired => if_neg (by rw [hacquired]; exact Bool.false_ne_true)⟩
        by_cases hacquired : handle.acquired = true
        · exact .inl (by rw [if_pos hacquired]; rfl)
        · exact .inr ⟨_, if_neg hacquired⟩
      · cases hstep
    · cases hstep
  powerless p handle hmem hconcerns hnot := by
    refine ⟨fun run => ?_, fun op hp => returns_false hp hnot⟩
    have hrun : Meets step (fun _ _ => True) s run := meets_of_forall (fun _ _ => trivial) s run
    refine hrun.mono_of_invariant (I := fun s' => Kept s' ∧ handle ∈ s'.handles ∧ s'.Concerns p handle ∧
      ¬ s'.Stores handle) ?_ ?_ ⟨h, hmem, hconcerns, hnot⟩
    · intro s₁ a s₂ hs _ hstep
      obtain ⟨hkept, hmem, hconcerns, hnot⟩ := hs
      exact ⟨step_kept hkept hstep, handles_of_step hstep hmem, step_concerns hstep hconcerns,
        step_not_stored hkept hstep hmem hnot⟩
    · intro s₁ a hs _
      obtain ⟨hkept, -, hconcerns, hnot⟩ := hs
      exact powerless_of_not_stored hkept hconcerns hnot a
  held a s' handle hstep hmem hnew hacquired := by
    have hstores := stores_of_new hstep hmem hnew hacquired
    refine ⟨hstores, fun run hends => ?_⟩
    have hinv : ∀ s₁ a s₂, (Kept s₁ ∧ handle ∈ s₁.handles ∧ s₁.Stores handle) → ¬ s₁.Ends handle a →
        step s₁ a = some s₂ → Kept s₂ ∧ handle ∈ s₂.handles ∧ s₂.Stores handle := by
      intro s₁ a s₂ hs hnot hstep
      obtain ⟨hkept, hmem, hstores⟩ := hs
      exact ⟨step_kept hkept hstep, handles_of_step hstep hmem, (step_stored hkept hstep hmem hstores hnot).1⟩
    refine ⟨hends.mono_of_invariant hinv ?_ ⟨step_kept h hstep, hmem, hstores⟩, fun s'' hrun => ?_⟩
    · intro s₁ a hs hnot s₂ hstep
      exact (step_stored hs.1 hstep hs.2.1 hs.2.2 hnot).2
    · exact (exec_invariant hinv hends hrun ⟨step_kept h hstep, hmem, hstores⟩).2.2

/-- **The lock is never taken from its holder**, whatever the order of the commands and the time between
them. -/
theorem lock_never_taken {now : ℤ} {run : List LockAction} {s : LockSystem}
    (hrun : exec step (initial now) run = some s) : Undisputed s :=
  (exec_preserves (fun _ _ _ h hstep => step_kept h hstep) hrun (initial_kept now)).undisputed

/-- A worker acquires the lock and begins to release it; the lock expires in between, and another worker has
it. -/
def lateRelease : List LockAction :=
  [.acquire "order-1" "token-a" 1000 .done, .call 0 .release ⟨lockKeyPrefix ++ "order-1", "token-a", true⟩,
    .watch 0 .done, .get 0 .done, .wait 1000, .acquire "order-1" "token-b" 1000 .done, .exec 0 .done]

theorem lock_never_taken_lateRelease : ∃ s, exec step (initial 0) lateRelease = some s ∧ Undisputed s ∧
    s.keys.get (lockKeyPrefix ++ "order-1") = some "token-b" := by
  have hmap : (exec step (initial 0) lateRelease).map (fun s => s.keys.get (lockKeyPrefix ++ "order-1")) =
      some (some "token-b") := by decide +kernel
  obtain ⟨s, hrun, hget⟩ := Option.map_eq_some_iff.mp hmap
  exact ⟨s, hrun, lock_never_taken hrun, hget⟩

end LockSystem

end CountyFlow.Locks
