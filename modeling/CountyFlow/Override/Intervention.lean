import CountyFlow.Override.Service
import CountyFlow.Security.Principal

/-!
# The intervention view

`RuntimeOverrideQueryService.get_intervention_context` tells an operator whether a thread can be
overridden now, and what may be written.  It looks at the thread and its canonical checkpoint with tests
of its own, and not at what `RuntimeOverrideCommand` asks of its texts: their writers have seen to that.
-/

namespace CountyFlow.Override

open CountyFlow.Core CountyFlow.Runtime

/-! ### The view -/

inductive RuntimeInterventionEligibility where
  | eligible
  | notStable
  | terminal
  | noPermission
  | wrongBoundary
  | busy
  deriving DecidableEq, Repr

structure RuntimeInterventionTarget where
  entityType : String
  entityId : String
  displayName : String
  field : String
  currentValue : String
  allowedNewValues : List String
  deriving DecidableEq, Repr

structure RuntimeInterventionContext where
  threadId : String
  taskId : String
  runtimeStatus : RuntimeThreadStatus
  stateVersion : ℕ
  currentNode : Option String
  nextNode : Option String
  canonicalCheckpointId : Option String
  checkpointAvailable : Bool
  eligibility : RuntimeInterventionEligibility
  eligibilityReasonCode : Option String
  canOverride : Bool
  target : Option RuntimeInterventionTarget
  observedAt : ℕ
  deriving DecidableEq, Repr

def allowedNewValues : List String := ["BROKEN", "UNAVAILABLE", "MAINTENANCE"]

/-- `_target`. -/
def interventionTarget (state : State) : Option RuntimeInterventionTarget :=
  match state.get "vehicle_id", state.get "vehicle_status" with
  | .str entityId, .str currentValue =>
    some
      { entityType := "Vehicle"
        entityId := entityId
        displayName :=
          match state.get "vehicle_display_name" with
          | .str displayName => if displayName = "" then entityId else displayName
          | _ => entityId
        field := "status"
        currentValue := currentValue
        allowedNewValues := if currentValue = "NORMAL" then allowedNewValues else [] }
  | _, _ => none

/-- `_eligibility`. -/
def interventionEligibility (thread : RuntimeThread) (canOverride checkpointAvailable : Bool)
    (target : Option RuntimeInterventionTarget) : RuntimeInterventionEligibility × Option String :=
  if canOverride = false then (.noPermission, some "RUNTIME_OVERRIDE_FORBIDDEN")
  else if thread.status = .terminal then (.terminal, some "THREAD_TERMINAL")
  else if thread.status = .overriding then (.busy, some "RUNTIME_OVERRIDE_BUSY")
  else if thread.status ≠ .stable then (.notStable, some "THREAD_NOT_STABLE")
  else if (thread.currentNode, thread.nextNode) ≠ (some "environment", some "capacity") then
    (.wrongBoundary, some "RUNTIME_OVERRIDE_WRONG_BOUNDARY")
  else if checkpointAvailable = false then (.wrongBoundary, some "CANONICAL_CHECKPOINT_MISSING")
  else match target with
    | none => (.wrongBoundary, some "RUNTIME_STATE_PRECONDITION_FAILED")
    | some target =>
      if target.currentValue ≠ "NORMAL" then (.wrongBoundary, some "OVERRIDE_VALUE_INVALID")
      else (.eligible, none)

/-- The canonical checkpoint as the view reads it; a store that fails is only met when there is one. -/
def canonicalRecord (db : Db) (thread : RuntimeThread) (storeAvailable : Bool) :
    Except String (Option CheckpointRecord) :=
  match thread.currentCheckpointId with
  | none => .ok none
  | some checkpointId =>
    if storeAvailable = false then .error "CHECKPOINT_STORE_UNAVAILABLE"
    else .ok (db.store (thread.threadId, checkpointId))

/-- The context of a thread and the record of its canonical checkpoint. -/
def interventionContext (thread : RuntimeThread) (record : Option CheckpointRecord) (canOverride : Bool)
    (now : ℕ) : RuntimeInterventionContext :=
  let state := record.elim [] CheckpointRecord.state
  let target := interventionTarget state
  let (eligibility, reason) := interventionEligibility thread canOverride record.isSome target
  { threadId := thread.threadId
    taskId := thread.taskId
    runtimeStatus := thread.status
    stateVersion := thread.stateVersion
    currentNode := thread.currentNode
    nextNode := thread.nextNode
    canonicalCheckpointId := thread.currentCheckpointId
    checkpointAvailable := record.isSome
    eligibility := eligibility
    eligibilityReasonCode := reason
    canOverride := canOverride
    target := target
    observedAt := now }

def getInterventionContext (db : Db) (threadId : String) (principal : Security.AuthenticatedPrincipal)
    (o : Outcome) : Except String RuntimeInterventionContext :=
  if principal.can .runtimeRead = false then .error "RUNTIME_THREAD_FORBIDDEN"
  else match db.threads threadId with
    | none => .error "THREAD_NOT_FOUND"
    | some t =>
      (canonicalRecord db t.row o.storeAvailable).map fun record =>
        interventionContext t.row record (principal.can .runtimeOverride) o.now

/-! ### A request made from the view -/

/-- The principal as the override service reads it. -/
def operatorOf (principal : Security.AuthenticatedPrincipal) : AuthenticatedPrincipal where
  subjectId := principal.subjectId.value
  roles := principal.roles.map Security.Role.value
  permissions := principal.permissions.map Security.Permission.value

/-- The call of `apply` that a context and its target offer, for a new value. -/
def RuntimeInterventionContext.offer (context : RuntimeInterventionContext)
    (target : RuntimeInterventionTarget) (principal : Security.AuthenticatedPrincipal)
    (idempotencyKey reason newValue : String) : ApplyInput where
  threadId := context.threadId
  request :=
    { idempotencyKey := idempotencyKey
      entityType := target.entityType
      entityId := target.entityId
      field := target.field
      oldValue := target.currentValue
      newValue := newValue
      reason := reason
      expectedVersion := context.stateVersion
      expectedNextNode := context.nextNode }
  principal := operatorOf principal

/-- The locals of `_apply` for a new command. -/
def ApplyInput.context (input : ApplyInput) (command : RuntimeOverrideCommand) : ApplyContext :=
  ⟨input.threadId, input.request, command, command.overrideId⟩

/-- A call of `apply` gets to the claim of the boundary: its command is built, the thread passes the checks
under the lock, and the policy allows the command. -/
def Passes (db : Db) (o : Outcome) (input : ApplyInput) : Prop :=
  ∃ command thread source,
    ApplyState.enter input o db = .reserving input command ∧
    ApplyState.load (input.context command) db = .reading (input.context command) thread ∧
    ApplyState.read (input.context command) thread o db = .claiming (input.context command) thread source

/-! ### What it takes to pass -/

variable {values : List String} {head : String}

theorem sortedHead_mem (h : sortedHead values = some head) : head ∈ values := by
  cases values with
  | nil => cases h
  | cons v vs =>
    cases h
    have hfold : ∀ (vs : List String) (v : String),
        vs.foldl (fun least x => if x < least then x else least) v ∈ v :: vs := by
      intro vs
      induction vs with
      | nil => intro v; exact List.mem_singleton_self v
      | cons w vs ih =>
        intro v
        rw [List.foldl_cons]
        rcases List.mem_cons.mp (ih (if w < v then w else v)) with heq | hmem
        · rw [heq]
          split
          · exact List.mem_cons_of_mem v List.mem_cons_self
          · exact List.mem_cons_self
        · exact List.mem_cons_of_mem v (List.mem_cons_of_mem w hmem)
    exact hfold vs v

theorem sortedHead_isSome (h : values ≠ []) : ∃ head, sortedHead values = some head := by
  cases values with
  | nil => exact absurd rfl h
  | cons v vs => exact ⟨_, rfl⟩

def RuntimeOverrideCommand.Bounded (c : RuntimeOverrideCommand) : Prop :=
  ∀ entry ∈ c.boundedText, 0 < entry.2.1.length ∧ entry.2.1.length ≤ entry.2.2

theorem postInit_ok_iff {c : RuntimeOverrideCommand} :
    c.postInit = .ok () ↔ c.Bounded ∧ c.expectedNextNode ≠ some "" := by
  unfold RuntimeOverrideCommand.postInit RuntimeOverrideCommand.Bounded
  split
  · rename_i name value limit hfind
    have hmem := List.mem_of_find?_eq_some hfind
    have hbad := List.find?_some hfind
    simp only [decide_eq_true_eq] at hbad
    refine ⟨(fun h => by cases h), fun h => ?_⟩
    have hgood := h.1 _ hmem
    dsimp only at hgood
    omega
  · rename_i hfind
    have hgood : ∀ entry ∈ c.boundedText, 0 < entry.2.1.length ∧ entry.2.1.length ≤ entry.2.2 := by
      rintro ⟨name, value, limit⟩ hmem
      have hnot := List.find?_eq_none.mp hfind _ hmem
      simp only [decide_eq_true_eq] at hnot
      show 0 < value.length ∧ value.length ≤ limit
      omega
    split
    · rename_i hnext
      exact ⟨(fun h => by cases h), fun h => absurd hnext h.2⟩
    · rename_i hnext
      exact ⟨fun _ => ⟨hgood, hnext⟩, fun _ => rfl⟩

theorem passes_iff {db : Db} {o : Outcome} {input : ApplyInput} :
    Passes db o input ↔ ∃ t role checkpointId source,
      db.threads input.threadId = some t ∧
      runtimeOverridePermission ∈ input.principal.permissions ∧
      sortedHead input.principal.roles = some role ∧
      (input.command o.uuid role o.now).postInit = .ok () ∧
      t.row.stateVersion = input.request.expectedVersion ∧
      t.row.currentCheckpointId = some checkpointId ∧
      o.storeAvailable = true ∧
      db.store (input.threadId, checkpointId) = some source ∧
      Allowed (input.command o.uuid role o.now) t.row source.state := by
  constructor
  · rintro ⟨command, thread, source, henter, hload, hread⟩
    obtain ⟨code, hcode⟩ | ⟨role, hrole, hperm, hpost, hreserving⟩ := ApplyState.enter_cases input o db
    · rw [hcode] at henter
      cases henter
    rw [hreserving] at henter
    injection henter with _ hcommand
    subst hcommand
    obtain ⟨w, -, hw⟩ | ⟨t, ht, -, hversion, hcheckpoint, hreading⟩ :=
      ApplyState.load_cases (input.context (input.command o.uuid role o.now)) db
    · rw [hw] at hload
      cases hload
    rw [hreading] at hload
    injection hload with _ hthread
    subst hthread
    obtain ⟨checkpointId, hid⟩ := Option.ne_none_iff_exists'.mp hcheckpoint
    unfold ApplyState.read at hread
    split at hread
    · cases hread
    rename_i havailable
    split at hread
    · cases hread
    rename_i record hrecord
    dsimp only at hread
    split at hread
    · rename_i hallowed
      injection hread with _ _ hsource
      subst hsource
      refine ⟨t, role, checkpointId, record, ht, hperm, hrole, hpost, hversion, hid,
        by simpa using havailable, ?_, evaluate_allowed_iff.mp hallowed⟩
      rw [hid] at hrecord
      exact hrecord
    · cases hread
  · rintro ⟨t, role, checkpointId, source, ht, hperm, hrole, hpost, hversion, hid, havailable, hsource,
      hallowed⟩
    refine ⟨input.command o.uuid role o.now, t.row, source, ?_, ?_, ?_⟩
    · simp only [ApplyState.enter, ht, hperm, not_true_eq_false, if_false, ApplyInput.buildCommand, hrole,
        hpost, Except.map]
    · simp only [ApplyState.load, ApplyInput.context, ht, hallowed.status, hversion, hid]
      simp
    · simp only [ApplyState.read, ApplyInput.context, havailable, hid, Option.getD_some, hsource,
        evaluate_allowed_iff.mpr hallowed]
      simp

/-! ### What the view says -/

theorem Permission.value_injective {a b : Security.Permission} (h : a.value = b.value) : a = b := by
  have ha := Security.Permission.ofValue_value a
  rw [h, Security.Permission.ofValue_value b] at ha
  exact (Option.some.inj ha).symm

theorem mem_operatorOf_permissions {principal : Security.AuthenticatedPrincipal} :
    runtimeOverridePermission ∈ (operatorOf principal).permissions ↔
      principal.can .runtimeOverride = true := by
  rw [Security.AuthenticatedPrincipal.can, decide_eq_true_eq]
  constructor
  · intro h
    obtain ⟨permission, hmem, hvalue⟩ := List.mem_map.mp h
    have heq : permission = .runtimeOverride := Permission.value_injective hvalue
    exact heq ▸ hmem
  · intro h
    exact List.mem_map.mpr ⟨_, h, rfl⟩

theorem Role.value_bounded (role : Security.Role) : 0 < role.value.length ∧ role.value.length ≤ 64 := by
  cases role <;> decide

theorem sortedHead_operatorOf {principal : Security.AuthenticatedPrincipal}
    (h : sortedHead (operatorOf principal).roles = some head) : 0 < head.length ∧ head.length ≤ 64 := by
  obtain ⟨role, -, rfl⟩ := List.mem_map.mp (sortedHead_mem h)
  exact Role.value_bounded role

variable {state : State} {target : RuntimeInterventionTarget}

theorem interventionTarget_eq_some (h : interventionTarget state = some target) :
    state.get "vehicle_id" = .str target.entityId ∧
      state.get "vehicle_status" = .str target.currentValue ∧
      target.entityType = "Vehicle" ∧ target.field = "status" ∧
      target.allowedNewValues = if target.currentValue = "NORMAL" then allowedNewValues else [] := by
  unfold interventionTarget at h
  split at h
  · rename_i entityId currentValue hid hstatus
    cases h
    exact ⟨hid, hstatus, rfl, rfl, rfl⟩
  · cases h

theorem exists_interventionTarget {entityId currentValue : String}
    (hid : state.get "vehicle_id" = .str entityId)
    (hstatus : state.get "vehicle_status" = .str currentValue) :
    ∃ target, interventionTarget state = some target ∧ target.currentValue = currentValue := by
  unfold interventionTarget
  rw [hid, hstatus]
  exact ⟨_, rfl, rfl⟩

variable {thread : RuntimeThread}

theorem eligible_iff {checkpointAvailable : Bool} {target : Option RuntimeInterventionTarget} :
    (interventionEligibility thread true checkpointAvailable target).1 = .eligible ↔
      thread.status = .stable ∧
      (thread.currentNode, thread.nextNode) = (some "environment", some "capacity") ∧
      checkpointAvailable = true ∧ ∃ chosen, target = some chosen ∧ chosen.currentValue = "NORMAL" := by
  unfold interventionEligibility
  rw [if_neg Bool.false_ne_true.symm]
  cases thread.status with
  | terminal => simp
  | overriding => simp
  | running => simp
  | stable =>
    simp only [reduceCtorEq, if_false, ne_eq, not_true_eq_false, true_and]
    by_cases hboundary : (thread.currentNode, thread.nextNode) = (some "environment", some "capacity")
    · rw [if_neg (not_not.mpr hboundary)]
      cases checkpointAvailable with
      | false => simp
      | true =>
        cases target with
        | none => simp
        | some chosen => by_cases hvalue : chosen.currentValue = "NORMAL" <;> simp [hboundary, hvalue]
    · rw [if_pos hboundary]
      simp [hboundary]

/-- The view offers the override of a vehicle: the thread is stable at the boundary, and its canonical
checkpoint holds the vehicle as `NORMAL`. -/
structure Offered (db : Db) (t : ThreadRecord) (principal : Security.AuthenticatedPrincipal) (o : Outcome)
    (vehicleId : String) : Prop where
  readable : principal.can .runtimeRead = true
  stable : t.row.status = .stable
  boundary : (t.row.currentNode, t.row.nextNode) = (some "environment", some "capacity")
  available : o.storeAvailable = true
  checkpoint : ∃ checkpointId source, t.row.currentCheckpointId = some checkpointId ∧
    db.store (t.row.threadId, checkpointId) = some source ∧
    source.state.get "vehicle_id" = .str vehicleId ∧ source.state.get "vehicle_status" = .str "NORMAL"

/-- What the writers put down: a thread has an id that fits its column, a request names its vehicle with 1 to
64 characters and no node renames it, and a principal whose token was verified has a role. -/
structure Written (db : Db) (t : ThreadRecord) (principal : Security.AuthenticatedPrincipal) : Prop where
  thread : 0 < t.row.threadId.length ∧ t.row.threadId.length ≤ 96
  vehicle : ∀ checkpointId source vehicleId, t.row.currentCheckpointId = some checkpointId →
    db.store (t.row.threadId, checkpointId) = some source → source.state.get "vehicle_id" = .str vehicleId →
      0 < vehicleId.length ∧ vehicleId.length ≤ 64
  role : principal.roles ≠ []

/-- The view calls the thread `ELIGIBLE`. -/
def Eligible (db : Db) (threadId : String) (principal : Security.AuthenticatedPrincipal) (o : Outcome) :
    Prop :=
  ∃ context, getInterventionContext db threadId principal o = .ok context ∧
    context.eligibility = .eligible

/-- A request made from the view passes. -/
def OfferPasses (db : Db) (threadId : String) (principal : Security.AuthenticatedPrincipal) (o : Outcome)
    (idempotencyKey reason newValue : String) : Prop :=
  ∃ context target, getInterventionContext db threadId principal o = .ok context ∧
    context.target = some target ∧
    Passes db o (context.offer target principal idempotencyKey reason newValue)

/-- **The view tells the truth**: it says `ELIGIBLE` when some request made from it passes, and then each
value that it lists passes. -/
def TellsTruth (db : Db) (threadId : String) (principal : Security.AuthenticatedPrincipal) (o : Outcome)
    (idempotencyKey reason : String) : Prop :=
  (Eligible db threadId principal o ↔
      ∃ newValue, OfferPasses db threadId principal o idempotencyKey reason newValue) ∧
    ∀ context target, getInterventionContext db threadId principal o = .ok context →
      context.eligibility = .eligible → context.target = some target →
      ∀ newValue ∈ target.allowedNewValues,
        Passes db o (context.offer target principal idempotencyKey reason newValue)

variable {newValue idempotencyKey reason : String}

section

variable {db : Db} {t : ThreadRecord} {principal : Security.AuthenticatedPrincipal} {o : Outcome}

theorem canonicalRecord_some {storeAvailable : Bool} {source : CheckpointRecord} :
    canonicalRecord db thread storeAvailable = .ok (some source) ↔
      storeAvailable = true ∧ ∃ checkpointId, thread.currentCheckpointId = some checkpointId ∧
        db.store (thread.threadId, checkpointId) = some source := by
  unfold canonicalRecord
  cases thread.currentCheckpointId with
  | none => simp
  | some checkpointId => cases storeAvailable <;> simp

variable {context : RuntimeInterventionContext}

theorem getInterventionContext_ok (ht : db.threads t.row.threadId = some t)
    (hperm : principal.can .runtimeOverride = true) :
    getInterventionContext db t.row.threadId principal o = .ok context ↔
      principal.can .runtimeRead = true ∧
        ∃ record, canonicalRecord db t.row o.storeAvailable = .ok record ∧
          context = interventionContext t.row record true o.now := by
  unfold getInterventionContext
  rw [ht, hperm]
  cases principal.can .runtimeRead with
  | false => simp
  | true =>
    cases hrecord : canonicalRecord db t.row o.storeAvailable with
    | error code => simp [Except.map, hrecord]
    | ok record => simp [Except.map, hrecord, eq_comm]

theorem record_of_target {record : Option CheckpointRecord}
    (h : interventionTarget (record.elim [] CheckpointRecord.state) = some target) :
    ∃ source, record = some source ∧ interventionTarget source.state = some target := by
  cases record with
  | none => cases h
  | some source => exact ⟨source, rfl, h⟩

theorem offered_of_eligible (ht : db.threads t.row.threadId = some t)
    (hperm : principal.can .runtimeOverride = true)
    (hcontext : getInterventionContext db t.row.threadId principal o = .ok context)
    (heligible : context.eligibility = .eligible) :
    ∃ target, context.target = some target ∧ target.currentValue = "NORMAL" ∧
      Offered db t principal o target.entityId := by
  obtain ⟨hread, record, hrecord, rfl⟩ := (getInterventionContext_ok ht hperm).mp hcontext
  obtain ⟨hstable, hboundary, -, target, htarget, hnormal⟩ := eligible_iff.mp heligible
  obtain ⟨source, rfl, htarget'⟩ := record_of_target htarget
  obtain ⟨havailable, checkpointId, hid, hsource⟩ := canonicalRecord_some.mp hrecord
  obtain ⟨hvehicle, hstatus, -⟩ := interventionTarget_eq_some htarget'
  rw [hnormal] at hstatus
  exact ⟨target, htarget, hnormal, hread, hstable, hboundary, havailable, checkpointId, source, hid, hsource,
    hvehicle, hstatus⟩

theorem Offered.eligible {vehicleId : String} (h : Offered db t principal o vehicleId)
    (ht : db.threads t.row.threadId = some t) (hperm : principal.can .runtimeOverride = true) :
    Eligible db t.row.threadId principal o := by
  obtain ⟨checkpointId, source, hid, hsource, hvehicle, hstatus⟩ := h.checkpoint
  obtain ⟨target, htarget, hnormal⟩ := exists_interventionTarget hvehicle hstatus
  have hrecord := canonicalRecord_some.mpr ⟨h.available, checkpointId, hid, hsource⟩
  refine ⟨_, (getInterventionContext_ok ht hperm).mpr ⟨h.readable, some source, hrecord, rfl⟩, ?_⟩
  exact eligible_iff.mpr ⟨h.stable, h.boundary, rfl, target, htarget, hnormal⟩

theorem allowedNewValues_of_context (ht : db.threads t.row.threadId = some t)
    (hperm : principal.can .runtimeOverride = true)
    (hcontext : getInterventionContext db t.row.threadId principal o = .ok context)
    (htarget : context.target = some target) :
    target.allowedNewValues = if target.currentValue = "NORMAL" then allowedNewValues else [] := by
  obtain ⟨-, record, -, rfl⟩ := (getInterventionContext_ok ht hperm).mp hcontext
  obtain ⟨source, rfl, htarget'⟩ := record_of_target htarget
  exact (interventionTarget_eq_some htarget').2.2.2.2

theorem newValue_allowed (h : newValue ∈ allowedNewValues) : ("NORMAL", newValue) ∈ allowedTransitions := by
  simp only [allowedNewValues, List.mem_cons, List.not_mem_nil, or_false] at h
  obtain rfl | rfl | rfl := h <;> decide

/-- The key and the reason that an operator adds, and the new id, are within their bounds. -/
structure Addition (o : Outcome) (idempotencyKey reason : String) : Prop where
  overrideId : 0 < o.uuid.length ∧ o.uuid.length ≤ 36
  idempotencyKey : 0 < idempotencyKey.length ∧ idempotencyKey.length ≤ 128
  reason : 0 < reason.length ∧ reason.length ≤ 512

/-- What a passing request says of the thread is what the view looks at. -/
theorem offered_of_passes (ht : db.threads t.row.threadId = some t)
    (hperm : principal.can .runtimeOverride = true)
    (hcontext : getInterventionContext db t.row.threadId principal o = .ok context)
    (htarget : context.target = some target)
    (hpasses : Passes db o (context.offer target principal idempotencyKey reason newValue)) :
    Offered db t principal o target.entityId := by
  obtain ⟨hread, record, hrecord, rfl⟩ := (getInterventionContext_ok ht hperm).mp hcontext
  obtain ⟨source, rfl, htarget'⟩ := record_of_target htarget
  obtain ⟨havailable, checkpointId, hid, hsource⟩ := canonicalRecord_some.mp hrecord
  obtain ⟨hvehicle, hstatus, -⟩ := interventionTarget_eq_some htarget'
  obtain ⟨t', role, _, source', ht', -, -, -, -, -, -, -, hallowed⟩ := passes_iff.mp hpasses
  obtain rfl : t = t' := Option.some.inj (ht.symm.trans ht')
  have hnormal : target.currentValue = "NORMAL" := by
    have htransition : (target.currentValue, newValue) ∈ allowedTransitions := hallowed.transition
    simp only [allowedTransitions, List.mem_cons, Prod.mk.injEq, List.not_mem_nil, or_false] at htransition
    obtain ⟨h, -⟩ | ⟨h, -⟩ | ⟨h, -⟩ := htransition <;> exact h
  rw [hnormal] at hstatus
  exact ⟨hread, hallowed.status, hallowed.boundary, havailable, checkpointId, source, hid, hsource, hvehicle,
    hstatus⟩

/-- A request for the vehicle that is offered passes, with any new value that the policy allows. -/
theorem Offered.passes (ht : db.threads t.row.threadId = some t)
    (hperm : principal.can .runtimeOverride = true) (hwritten : Written db t principal)
    (hadd : Addition o idempotencyKey reason)
    (hcontext : getInterventionContext db t.row.threadId principal o = .ok context)
    (htarget : context.target = some target) (hoffered : Offered db t principal o target.entityId)
    (htransition : ("NORMAL", newValue) ∈ allowedTransitions) :
    Passes db o (context.offer target principal idempotencyKey reason newValue) := by
  obtain ⟨hread, record, hrecord, rfl⟩ := (getInterventionContext_ok ht hperm).mp hcontext
  obtain ⟨source, rfl, htarget'⟩ := record_of_target htarget
  obtain ⟨havailable, checkpointId, hid, hsource⟩ := canonicalRecord_some.mp hrecord
  obtain ⟨hvehicle, hstatus, htype, hfield, -⟩ := interventionTarget_eq_some htarget'
  obtain ⟨checkpointId', source', hid', hsource', -, hnormal⟩ := hoffered.checkpoint
  obtain rfl : checkpointId = checkpointId' := Option.some.inj (hid.symm.trans hid')
  obtain rfl : source = source' := Option.some.inj (hsource.symm.trans hsource')
  have hold : target.currentValue = "NORMAL" := by
    rw [hstatus, Value.str.injEq] at hnormal
    exact hnormal
  have hroles : (operatorOf principal).roles ≠ [] := fun h => hwritten.role (List.map_eq_nil_iff.mp h)
  obtain ⟨role, hrole⟩ := sortedHead_isSome hroles
  have hnext : t.row.nextNode = some "capacity" := (Prod.mk.inj hoffered.boundary).2
  have hsubject : 0 < principal.subjectId.value.length ∧ principal.subjectId.value.length ≤ 128 := by
    refine ⟨Nat.pos_of_ne_zero fun hzero => ?_, principal.subjectId.bounded⟩
    exact principal.subjectId.nonempty (String.length_eq_zero_iff.mp hzero)
  obtain ⟨hpos, hlong⟩ := hwritten.vehicle checkpointId source _ hid hsource hvehicle
  refine passes_iff.mpr ⟨t, role, checkpointId, source, ht, mem_operatorOf_permissions.mpr hperm, hrole,
    ?_, rfl,
    hid, havailable, hsource, ⟨hoffered.stable, ?_, hoffered.boundary, Or.inr rfl, ?_, hvehicle, hstatus⟩⟩
  · refine postInit_ok_iff.mpr ⟨fun entry hentry => ?_, ?_⟩
    · simp only [RuntimeOverrideCommand.boundedText, ApplyInput.command,
        RuntimeInterventionContext.offer, List.mem_cons, List.not_mem_nil, or_false] at hentry
      rcases hentry with rfl | rfl | rfl | rfl | rfl | rfl | rfl | rfl | rfl
      · exact hadd.overrideId
      · exact hadd.idempotencyKey
      · exact hwritten.thread
      · rw [htype]
        decide
      · exact ⟨hpos, hlong.trans (by decide : 64 ≤ 128)⟩
      · rw [hfield]
        decide
      · exact hadd.reason
      · exact hsubject
      · exact sortedHead_operatorOf hrole
    · show t.row.nextNode ≠ some ""
      rw [hnext]
      decide
  · show (target.entityType, target.field) = _
    rw [htype, hfield]
  · show (target.currentValue, newValue) ∈ allowedTransitions
    rw [hold]
    exact htransition

/-- **The view tells the truth** of every thread and checkpoint that their writers have put down. -/
theorem view_tells_truth (ht : db.threads t.row.threadId = some t)
    (hperm : principal.can .runtimeOverride = true) (hwritten : Written db t principal)
    {idempotencyKey reason : String} (hadd : Addition o idempotencyKey reason) :
    TellsTruth db t.row.threadId principal o idempotencyKey reason := by
  have hlisted : ∀ context target, getInterventionContext db t.row.threadId principal o = .ok context →
      context.eligibility = .eligible → context.target = some target →
      ∀ newValue ∈ allowedNewValues,
        Passes db o (context.offer target principal idempotencyKey reason newValue) := by
    intro context target hcontext heligible htarget newValue hnew
    obtain ⟨target', htarget', -, hoffered⟩ := offered_of_eligible ht hperm hcontext heligible
    obtain rfl : target = target' := Option.some.inj (htarget.symm.trans htarget')
    exact hoffered.passes ht hperm hwritten hadd hcontext htarget (newValue_allowed hnew)
  refine ⟨⟨fun heligible => ?_, fun hpasses => ?_⟩, fun context target hcontext heligible htarget => ?_⟩
  · obtain ⟨context, hcontext, heligible⟩ := heligible
    obtain ⟨target, htarget, -⟩ := offered_of_eligible ht hperm hcontext heligible
    exact ⟨"BROKEN", context, target, hcontext, htarget,
      hlisted context target hcontext heligible htarget "BROKEN" List.mem_cons_self⟩
  · obtain ⟨newValue, context, target, hcontext, htarget, hpasses⟩ := hpasses
    exact (offered_of_passes ht hperm hcontext htarget hpasses).eligible ht hperm
  · intro newValue hnew
    obtain ⟨target', htarget', hnormal, -⟩ := offered_of_eligible ht hperm hcontext heligible
    obtain rfl : target = target' := Option.some.inj (htarget.symm.trans htarget')
    rw [allowedNewValues_of_context ht hperm hcontext htarget, if_pos hnormal] at hnew
    exact hlisted context target hcontext heligible htarget newValue hnew

end

def supervisor : Security.AuthenticatedPrincipal where
  subjectId := ⟨"U1", by decide, by decide, by decide⟩
  displayName := ⟨"U1", by decide, by decide, by decide⟩
  roles := [.supervisor]
  permissions := Security.rolePermissionMatrix .supervisor
  authMethod := .developmentJwt
  issuedAt := 0
  expiresAt := 1
  jti := ⟨"J1", by decide, by decide, by decide⟩
  issued_lt_expires := by decide

/-- The thread `T1` before its capacity node. -/
def environmentThread : ThreadRecord := ⟨beforeCapacity, []⟩

/-- This thread, and a checkpoint in which the vehicle is `NORMAL`. -/
def environmentDb : Db where
  threads := fun id => if id = "T1" then some environmentThread else none
  ledger := .empty
  store := fun key =>
    if key = ("T1", "c4") then
      some { environmentCheckpoint with
        state := [("vehicle_id", .str "V1"), ("vehicle_status", .str "NORMAL")] }
    else none
  fence := fun _ => none

def quiet : Outcome where
  now := 0
  uuid := "00000000-0000-4000-8000-000000000000"
  lockAvailable := true
  storeAvailable := true
  update := .unavailable
  commits := true
  published := true

theorem environmentDb_thread : environmentDb.threads environmentThread.row.threadId =
    some environmentThread := rfl

theorem environmentDb_written : Written environmentDb environmentThread supervisor where
  thread := by decide
  vehicle := by
    intro checkpointId source vehicleId hid hsource hvehicle
    cases hid
    cases hsource
    cases hvehicle
    decide
  role := by decide

theorem supervisor_overrides : supervisor.can .runtimeOverride = true := by decide

theorem quiet_addition : Addition quiet "K1" "engine failure" where
  overrideId := by decide
  idempotencyKey := by decide
  reason := by decide

theorem view_tells_truth_v1 :
    TellsTruth environmentDb environmentThread.row.threadId supervisor quiet "K1" "engine failure" :=
  view_tells_truth environmentDb_thread supervisor_overrides environmentDb_written quiet_addition

end CountyFlow.Override
