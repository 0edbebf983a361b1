import CountyFlow.Lib.Chase
import CountyFlow.Runtime.Checkpoint

/-!
# The two selectors of a boundary

`ThreadCheckpointReconciler.reconcile` and `CheckpointedGraphRunner._latest_boundary` look for the same
checkpoint with code of their own.  The reconciler leaves out the canonical checkpoint itself, the runner
does not; but no checkpoint that was saved descends from itself.
-/

namespace CountyFlow.Runtime

open CountyFlow.Core CountyFlow.Lib

/-! ### Ancestry within a listing -/

/-- The parents of a record lead to a checkpoint; those in between are listed. -/
inductive DescendsIn (records : List CheckpointRecord) (checkpointId : String) : CheckpointRecord → Prop
  | child {record : CheckpointRecord} (h : record.parentCheckpointId = some checkpointId) :
      DescendsIn records checkpointId record
  | further {record parent : CheckpointRecord} {id : String} (h : record.parentCheckpointId = some id)
      (hparent : recordsById records id = some parent) (hrest : DescendsIn records checkpointId parent) :
      DescendsIn records checkpointId record

/-- All parents of a record are listed, belong to the thread and its root namespace, and have completed
no node. -/
inductive InitialIn (records : List CheckpointRecord) (threadId : String) : CheckpointRecord → Prop
  | root {record : CheckpointRecord} (h : record.parentCheckpointId = none) :
      InitialIn records threadId record
  | further {record parent : CheckpointRecord} {id : String} (h : record.parentCheckpointId = some id)
      (hparent : recordsById records id = some parent) (hthread : parent.threadId = threadId)
      (hns : parent.checkpointNamespace = "") (hzero : zeroProgress parent = true)
      (hrest : InitialIn records threadId parent) : InitialIn records threadId record

/-- One turn of the loop of `checkpoint_descends_from`. -/
def descendsTurn (checkpointId : String) (records : List CheckpointRecord) :
    Option String → Turn (Option String)
  | none => .stop false
  | some id =>
    if id = checkpointId then .stop true
    else match recordsById records id with
      | none => .stop false
      | some parent => .go parent.parentCheckpointId

/-- One turn of the loop of `checkpoint_has_initial_ancestry`. -/
def initialTurn (threadId : String) (records : List CheckpointRecord) :
    Option String → Turn (Option String)
  | none => .stop true
  | some id =>
    match recordsById records id with
    | none => .stop false
    | some parent =>
      if parent.threadId ≠ threadId ∨ parent.checkpointNamespace ≠ "" then .stop false
      else if zeroProgress parent = false then .stop false
      else .go parent.parentCheckpointId

def listedIds (records : List CheckpointRecord) : List (Option String) :=
  records.map fun record => some record.checkpointId

variable {records : List CheckpointRecord}

theorem mem_listedIds {id : String} {r : CheckpointRecord} (h : recordsById records id = some r) :
    some id ∈ listedIds records := by
  obtain ⟨hmem, rfl⟩ := recordsById_spec h
  exact List.mem_map_of_mem hmem

theorem descendsTurn_eq_link (c : String) (records : List CheckpointRecord) : descendsTurn c records =
    linkTurn (recordsById records) CheckpointRecord.parentCheckpointId false (fun id => id = c) fun _ =>
    true := by
  funext a
  cases a with
  | none => rfl
  | some id =>
    by_cases hid : id = c
    · simp [descendsTurn, linkTurn, hid]
    · cases h : recordsById records id <;> simp [descendsTurn, linkTurn, hid, h]

/-- What `checkpoint_has_initial_ancestry` asks of an ancestor. -/
def isInitial (threadId : String) (record : CheckpointRecord) : Bool :=
  record.threadId = threadId && record.checkpointNamespace = "" && zeroProgress record

variable {record : CheckpointRecord}

variable {threadId : String}

theorem isInitial_iff : isInitial threadId record = true ↔
    record.threadId = threadId ∧ record.checkpointNamespace = "" ∧ zeroProgress record = true := by
  simp [isInitial, and_assoc]

theorem initialTurn_eq_link (threadId : String) (records : List CheckpointRecord) :
    initialTurn threadId records = linkTurn (recordsById records) CheckpointRecord.parentCheckpointId true
      (fun _ => false) (isInitial threadId) := by
  funext a
  cases a with
  | none => rfl
  | some id =>
    cases h : recordsById records id with
    | none => simp [initialTurn, linkTurn, h]
    | some parent =>
      by_cases hhere : parent.threadId ≠ threadId ∨ parent.checkpointNamespace ≠ ""
      · have hnot : isInitial threadId parent ≠ true := fun hinitial => by
          obtain ⟨hthread, hns, -⟩ := isInitial_iff.mp hinitial
          exact hhere.elim (absurd hthread) (absurd hns)
        simp [initialTurn, linkTurn, h, hhere, hnot]
      · rw [not_or, not_ne_iff, not_ne_iff] at hhere
        cases hzero : zeroProgress parent <;> simp [initialTurn, linkTurn, isInitial, h, hhere, hzero]

theorem some_mem_map_some {id : String} {seen : List String} : some id ∈ seen.map some ↔ id ∈ seen := by
  simp

theorem descendsLoop_eq_chase (c : String) (records : List CheckpointRecord) (fuel : ℕ)
    (parent : Option String) (seen : List String) :
    descendsLoop c records fuel parent seen =
      chase (descendsTurn c records) fuel parent (seen.map some) := by
  induction fuel generalizing parent seen with
  | zero => rfl
  | succ fuel ih =>
    cases parent with
    | none => simp [descendsLoop, chase, descendsTurn]
    | some id =>
      rw [descendsLoop, chase]
      simp only [some_mem_map_some]
      by_cases hseen : id ∈ seen
      · rw [if_pos hseen, if_pos hseen]
      rw [if_neg hseen, if_neg hseen, descendsTurn]
      by_cases hid : id = c
      · rw [if_pos hid, if_pos hid]
      rw [if_neg hid, if_neg hid]
      cases recordsById records id with
      | none => rfl
      | some r => exact ih r.parentCheckpointId (id :: seen)

theorem initialLoop_eq_chase (threadId : String) (records : List CheckpointRecord) (fuel : ℕ)
    (parent : Option String) (seen : List String) :
    initialLoop threadId records fuel parent seen =
      chase (initialTurn threadId records) fuel parent (seen.map some) := by
  induction fuel generalizing parent seen with
  | zero => rfl
  | succ fuel ih =>
    cases parent with
    | none => simp [initialLoop, chase, initialTurn]
    | some id =>
      rw [initialLoop, chase]
      simp only [some_mem_map_some]
      by_cases hseen : id ∈ seen
      · rw [if_pos hseen, if_pos hseen]
      rw [if_neg hseen, if_neg hseen, initialTurn]
      cases recordsById records id with
      | none => rfl
      | some r =>
        show (if r.threadId ≠ threadId ∨ r.checkpointNamespace ≠ "" then false else _) = _
        by_cases hhere : r.threadId ≠ threadId ∨ r.checkpointNamespace ≠ ""
        · simp only [if_pos hhere]
        by_cases hzero : zeroProgress r = false
        · simp only [if_neg hhere, if_pos hzero]
        simp only [if_neg hhere, if_neg hzero]
        exact ih r.parentCheckpointId (id :: seen)

theorem linked_iff_descendsIn {c : String} :
    Linked (recordsById records) CheckpointRecord.parentCheckpointId false (fun id => id = c) (fun _ => true)
      record ↔ DescendsIn records c record := by
  constructor
  · intro h
    induction h with
    | root hroot _ => cases hroot
    | found h hfound => exact .child (h.trans (congrArg some (of_decide_eq_true hfound)))
    | further h hnext _ _ ih => exact .further h hnext ih
  · intro h
    induction h with
    | child h => exact .found h (decide_eq_true rfl)
    | further h hparent _ ih => exact .further h hparent rfl ih

theorem linked_iff_initialIn :
    Linked (recordsById records) CheckpointRecord.parentCheckpointId true (fun _ => false)
    (isInitial threadId)
      record ↔ InitialIn records threadId record := by
  constructor
  · intro h
    induction h with
    | root _ h => exact .root h
    | found _ hfound => cases hfound
    | further h hnext hpasses _ ih =>
      obtain ⟨hthread, hns, hzero⟩ := isInitial_iff.mp hpasses
      exact .further h hnext hthread hns hzero ih
  · intro h
    induction h with
    | root h => exact .root rfl h
    | further h hparent hthread hns hzero _ ih =>
      exact .further h hparent (isInitial_iff.mpr ⟨hthread, hns, hzero⟩) ih

theorem mem_listedIds_of_go {root : Bool} {found : String → Bool} {passes : CheckpointRecord → Bool}
    (a b : Option String)
    (h : linkTurn (recordsById records) CheckpointRecord.parentCheckpointId root found passes a = .go b) :
    a ∈ listedIds records := by
  obtain ⟨id, record, rfl, hrecord, -⟩ := linkTurn_go h
  exact mem_listedIds hrecord

theorem length_listedIds_lt (records : List CheckpointRecord) :
    (listedIds records).length < records.length + 1 := by
  simp [listedIds]

theorem checkpointDescendsFrom_iff {c : String} :
    checkpointDescendsFrom record c records = true ↔ DescendsIn records c record := by
  rw [checkpointDescendsFrom, descendsLoop_eq_chase, List.map_nil, descendsTurn_eq_link,
    chase_iff_leads mem_listedIds_of_go (length_listedIds_lt records), leads_linkTurn, linked_iff_descendsIn]

theorem checkpointHasInitialAncestry_iff :
    checkpointHasInitialAncestry record records = true ↔ InitialIn records record.threadId record := by
  rw [checkpointHasInitialAncestry, initialLoop_eq_chase, List.map_nil, initialTurn_eq_link,
    chase_iff_leads mem_listedIds_of_go (length_listedIds_lt records), leads_linkTurn, linked_iff_initialIn]

/-! ### The next boundary of a thread -/

/-- A listed record follows the canonical checkpoint, or nothing when there is none. -/
def FollowsIn (records : List CheckpointRecord) (record : CheckpointRecord) : Option String → Prop
  | none => InitialIn records record.threadId record
  | some c => DescendsIn records c record

structure Completes (thread : RuntimeThread) (records : List CheckpointRecord)
    (record : CheckpointRecord) : Prop where
  listed : record ∈ records
  threadId : record.threadId = thread.threadId
  follows : FollowsIn records record thread.currentCheckpointId
  node : ∃ node, thread.nextNode = some node ∧ record.state.get "last_completed_node" = .str node
  count : record.state.get "completed_node_count" = .int (thread.checkpointCount + 1)

variable {thread : RuntimeThread}

theorem parentIsContinuous_iff :
    parentIsContinuous thread records record = true ↔
      FollowsIn records record thread.currentCheckpointId := by
  unfold parentIsContinuous
  cases thread.currentCheckpointId with
  | none => exact checkpointHasInitialAncestry_iff
  | some c => exact checkpointDescendsFrom_iff

def boundaryFor (thread : RuntimeThread) (node : String) (records : List CheckpointRecord)
    (record : CheckpointRecord) : Bool :=
  record.threadId = thread.threadId ∧
    record.state.get "last_completed_node" = .str node ∧
    record.state.get "completed_node_count" = .int (thread.checkpointCount + 1) ∧
    thread.nextNode = some node ∧
    parentIsContinuous thread records record

theorem latestBoundary_eq (thread : RuntimeThread) (node : String) (records : List CheckpointRecord) :
    latestBoundary thread node records = records.find? (boundaryFor thread node records) := rfl

variable {node : String}

theorem boundaryFor_iff (hmem : record ∈ records) (hnode : thread.nextNode = some node) :
    boundaryFor thread node records record = true ↔ Completes thread records record := by
  unfold boundaryFor
  rw [decide_eq_true_eq, parentIsContinuous_iff]
  constructor
  · rintro ⟨hthread, hlast, hcount, -, hfollows⟩
    exact ⟨hmem, hthread, hfollows, ⟨node, hnode, hlast⟩, hcount⟩
  · rintro ⟨-, hthread, hfollows, ⟨node', hnode', hlast⟩, hcount⟩
    rw [hnode, Option.some.injEq] at hnode'
    subst hnode'
    exact ⟨hthread, hlast, hcount, hnode, hfollows⟩

def orphanFor (thread : RuntimeThread) (records : List CheckpointRecord) (record : CheckpointRecord) :
    Bool :=
  record.threadId = thread.threadId ∧
    some record.checkpointId ≠ thread.currentCheckpointId ∧
    parentIsContinuous thread records record ∧
    isContinuous thread record

theorem reconcileCandidates_eq (thread : RuntimeThread) (records : List CheckpointRecord) :
    reconcileCandidates thread records = records.filter (orphanFor thread records) := rfl

theorem isContinuous_iff :
    isContinuous thread record = true ↔ ∃ node, thread.nextNode = some node ∧ node ∈ nodeOrder ∧
      record.state.get "last_completed_node" = .str node ∧
      record.state.get "completed_node_count" = .int (thread.checkpointCount + 1) := by
  unfold isContinuous
  cases thread.nextNode with
  | none => simp
  | some node =>
    simp only [decide_eq_true_eq, Option.some.injEq, exists_eq_left']
    exact ⟨fun ⟨hlast, hin, hcount⟩ => ⟨hin, hlast, hcount⟩,
      fun ⟨hin, hlast, hcount⟩ => ⟨hlast, hin, hcount⟩⟩

theorem orphanFor_iff (hmem : record ∈ records) :
    orphanFor thread records record = true ↔
      Completes thread records record ∧ (∀ node, thread.nextNode = some node → node ∈ nodeOrder) ∧
        some record.checkpointId ≠ thread.currentCheckpointId := by
  unfold orphanFor
  rw [decide_eq_true_eq, parentIsContinuous_iff, isContinuous_iff]
  constructor
  · rintro ⟨hthread, hother, hfollows, node, hnode, hin, hlast, hcount⟩
    refine ⟨⟨hmem, hthread, hfollows, ⟨node, hnode, hlast⟩, hcount⟩, fun node' hnode' => ?_, hother⟩
    rw [hnode, Option.some.injEq] at hnode'
    exact hnode' ▸ hin
  · rintro ⟨⟨-, hthread, hfollows, ⟨node, hnode, hlast⟩, hcount⟩, hin, hother⟩
    exact ⟨hthread, hother, hfollows, node, hnode, hin node hnode, hlast, hcount⟩

/-! ### The reconciler and the registry -/

abbrev Registry := String → Option ThreadRecord

/-- `promote_checkpoint` on the registry: the snapshot it returns. -/
def Registry.promoteCheckpoint (registry : Registry) (command : PromoteCheckpoint) (commits : Bool) :
    Except RuntimeThreadError (RuntimeThread × Registry) :=
  match registry command.threadId with
  | none => .error (.lookupError command.threadId)
  | some t =>
    (t.promoteCheckpoint command commits).map fun t' =>
      (t'.row, Function.update registry command.threadId (some t'))

/-- `ThreadCheckpointReconciler.reconcile`, for the records it is shown: its answer and the registry
afterwards. -/
def reconcile (config : RuntimeConfig) (thread : RuntimeThread) (records : List CheckpointRecord)
    (workerConsumer : String) (registry : Registry) (commits : Bool) :
    Except String RuntimeThread × Registry :=
  if thread.status = .terminal ∨ thread.nextNode = none then (.ok thread, registry)
  else match reconcileCandidate config thread records workerConsumer with
    | .error code => (.error code, registry)
    | .ok none => (.ok thread, registry)
    | .ok (some command) =>
      match registry.promoteCheckpoint command commits with
      | .error _ => (.error "CHECKPOINT_RECONCILIATION_CONFLICT", registry)
      | .ok (promoted, registry') => (.ok promoted, registry')

/-- `reconcile` promotes a record by a command. -/
structure Promotes (config : RuntimeConfig) (thread : RuntimeThread) (records : List CheckpointRecord)
    (workerConsumer : String) (registry : Registry) (commits : Bool) (record : CheckpointRecord)
    (command : PromoteCheckpoint) : Prop where
  running : ¬ (thread.status = .terminal ∨ thread.nextNode = none)
  candidate : reconcileCandidates thread records = [record]
  built : reconcileCandidate config thread records workerConsumer = .ok (some command)
  accepted : ∃ promoted registry', registry.promoteCheckpoint command commits = .ok (promoted, registry')

variable {config : RuntimeConfig} {workerConsumer : String} {registry : Registry} {commits : Bool}

theorem reconcile_unchanged
    (h : ∀ record command,
      ¬ Promotes config thread records workerConsumer registry commits record command) :
    (reconcile config thread records workerConsumer registry commits).2 = registry := by
  unfold reconcile
  split
  · rfl
  rename_i hrunning
  split
  · rfl
  · rfl
  rename_i command hcommand
  split
  · rfl
  rename_i promoted registry' haccepted
  exfalso
  cases hlist : reconcileCandidates thread records with
  | nil =>
    rw [reconcileCandidate, hlist] at hcommand
    cases hcommand
  | cons record rest =>
    cases rest with
    | nil => exact h record command ⟨hrunning, hlist, hcommand, promoted, registry', haccepted⟩
    | cons next rest =>
      rw [reconcileCandidate, hlist] at hcommand
      cases hcommand

variable {command : PromoteCheckpoint}

theorem Promotes.command_eq
    (h : Promotes config thread records workerConsumer registry commits record command) :
    promotionCommand config thread record (completedNode record) workerConsumer
      ("reconcile:" ++ record.checkpointId) .reconciliation = .ok command := by
  have hcommand := h.built
  rw [reconcileCandidate, h.candidate] at hcommand
  cases hbuilt : promotionCommand config thread record (completedNode record) workerConsumer
      ("reconcile:" ++ record.checkpointId) .reconciliation with
  | error code =>
    simp only [hbuilt] at hcommand
    cases hcommand
  | ok built =>
    simp only [hbuilt] at hcommand
    rw [← Option.some.inj (Except.ok.inj hcommand)]

theorem runnerCommand_of_promotion {eventKey : String} {eventType : PromotionEvent}
    (h : promotionCommand config thread record node workerConsumer eventKey eventType = .ok command) :
    runnerCommand config thread record node workerConsumer =
      .ok { command with
        eventKey := "checkpoint:" ++ record.checkpointId
        eventType := .checkpointPromoted } ∧
      command.node = node := by
  unfold runnerCommand
  unfold promotionCommand at h ⊢
  split at h
  · cases h
  · split at h
    · cases h
    · split at h
      · cases h
      · rename_i hns hjson hsize
        rw [if_neg hns, if_neg hjson, if_neg hsize, ← Except.ok.inj h]
        exact ⟨rfl, rfl⟩

/-- The promoted record completes the next node, no other listed record does, and the runner returns it and
issues the same promotion. -/
structure SameChoice (config : RuntimeConfig) (thread : RuntimeThread) (records : List CheckpointRecord)
    (workerConsumer : String) (record : CheckpointRecord) (command : PromoteCheckpoint) : Prop where
  completes : Completes thread records record
  node : thread.nextNode = some command.node
  once : records.count record = 1
  only : ∀ other, Completes thread records other → other = record
  boundary : latestBoundary thread command.node records = some record
  same : ∃ issued, runnerCommand config thread record command.node workerConsumer = .ok issued ∧
    issued.checkpointId = command.checkpointId ∧ issued.node = command.node ∧
    issued.nextNode = command.nextNode ∧ issued.expectedStateVersion = command.expectedStateVersion ∧
    issued.expectedCheckpointId = command.expectedCheckpointId

variable {store : CheckpointStore}

/-- What completes the next node is not the canonical checkpoint itself. -/
theorem Completes.not_canonical (hstore : Saved store) (hlisted : ListedFrom store thread.threadId records)
    (h : Completes thread records record) : some record.checkpointId ≠ thread.currentCheckpointId := by
  intro hcanonical
  have hfollows := h.follows
  rw [← hcanonical] at hfollows
  have hdescends := descendsFrom_sound hlisted h.listed (checkpointDescendsFrom_iff.mpr hfollows)
  exact hstore.not_descends_self _ _ hdescends

theorem boundary_of_candidates (hstore : Saved store) (hlisted : ListedFrom store thread.threadId records)
    (hnode : thread.nextNode = some node) (hlist : reconcileCandidates thread records = [record]) :
    records.filter (boundaryFor thread node records) = [record] := by
  have hmem : record ∈ records.filter (orphanFor thread records) := by
    rw [← reconcileCandidates_eq, hlist]
    exact List.mem_singleton_self record
  rw [List.mem_filter] at hmem
  obtain ⟨-, hin, -⟩ := (orphanFor_iff hmem.1).mp hmem.2
  rw [← hlist, reconcileCandidates_eq]
  refine List.filter_congr fun other hother => ?_
  rw [Bool.eq_iff_iff, boundaryFor_iff hother hnode, orphanFor_iff hother]
  exact ⟨fun h => ⟨h, hin, h.not_canonical hstore hlisted⟩, fun h => h.1⟩

/-- **The two selectors agree.**  Of whatever checkpoints of a thread are listed: if the reconciler promotes a
record, the record is the only one to complete the next node, and the runner chooses and promotes it too.  In
every other case the registry is unchanged. -/
theorem reconcile_agrees (config : RuntimeConfig) (thread : RuntimeThread) (store : CheckpointStore)
    (records : List CheckpointRecord) (workerConsumer : String) (registry : Registry) (commits : Bool)
    (hstore : Saved store) (hlisted : ListedFrom store thread.threadId records) :
    (∀ record command, Promotes config thread records workerConsumer registry commits record command →
      command.checkpointId = record.checkpointId ∧
        SameChoice config thread records workerConsumer record command) ∧
    ((∀ record command,
        ¬ Promotes config thread records workerConsumer registry commits record command) →
      (reconcile config thread records workerConsumer registry commits).2 = registry) := by
  refine ⟨fun record command h => ?_, reconcile_unchanged⟩
  have hmem : record ∈ records.filter (orphanFor thread records) := by
    rw [← reconcileCandidates_eq, h.candidate]
    exact List.mem_singleton_self record
  rw [List.mem_filter] at hmem
  obtain ⟨hcompletes, -, -⟩ := (orphanFor_iff hmem.1).mp hmem.2
  obtain ⟨node, hnode, hlast⟩ := hcompletes.node
  have hnode' : completedNode record = node := by
    rw [completedNode, hlast]
  have hbuilt := h.command_eq
  rw [hnode'] at hbuilt
  obtain ⟨hissued, rfl⟩ := runnerCommand_of_promotion hbuilt
  have hfilter := boundary_of_candidates hstore hlisted hnode h.candidate
  refine ⟨(promotionCommand_ok hbuilt).2.2.2, hcompletes, hnode, ?_, fun other hcompletes' => ?_, ?_,
    _, hissued, rfl, rfl, rfl, rfl, rfl⟩
  · have hholds := (boundaryFor_iff hmem.1 hnode).mpr hcompletes
    rw [← List.count_filter hholds, hfilter, List.count_singleton_self]
  · have hmem' : other ∈ records.filter (boundaryFor thread command.node records) :=
      List.mem_filter.mpr ⟨hcompletes'.listed, (boundaryFor_iff hcompletes'.listed hnode).mpr hcompletes'⟩
    rw [hfilter] at hmem'
    exact List.mem_singleton.mp hmem'
  · rw [latestBoundary_eq, ← List.head?_filter, hfilter]
    rfl

/-- The thread `T1` before its capacity node. -/
def awaitingCapacity : RuntimeThread :=
  { (ThreadRecord.create "D1" "T1").row with
    status := .running
    currentCheckpointId := some "c4"
    stateVersion := 4
    currentNode := some "environment"
    nextNode := some "capacity"
    checkpointCount := 4 }

/-- The canonical checkpoint of this thread; what was before it is no longer listed. -/
def environmentCheckpoint : CheckpointRecord where
  threadId := "T1"
  checkpointId := "c4"
  parentCheckpointId := none
  checkpointNamespace := ""
  state := [("last_completed_node", .str "environment"), ("completed_node_count", .int 4)]
  serializedSizeBytes := 64

/-- The checkpoint that the capacity node has left behind. -/
def capacityCheckpoint : CheckpointRecord where
  threadId := "T1"
  checkpointId := "c5"
  parentCheckpointId := some "c4"
  checkpointNamespace := ""
  state := [("last_completed_node", .str "capacity"), ("completed_node_count", .int 5)]
  serializedSizeBytes := 64

/-- The checkpoints of this thread, the newest first. -/
def capacityListing : List CheckpointRecord := [capacityCheckpoint, environmentCheckpoint]

/-- The store after both were saved. -/
def capacityStore : CheckpointStore :=
  (CheckpointStore.empty.save environmentCheckpoint).save capacityCheckpoint

theorem capacityStore_saved : Saved capacityStore := by
  have hfirst : Saved (CheckpointStore.empty.save environmentCheckpoint) :=
    .save .empty rfl fun parent hparent => by cases hparent
  refine .save hfirst (by decide) fun parent hparent => ?_
  cases hparent
  decide

def roomy : RuntimeConfig := ⟨100, 1024⟩

def registered (thread : RuntimeThread) : Registry := fun id =>
  if id = thread.threadId then some ⟨thread, []⟩ else none

/-- The command for the orphan `c5`. -/
def promoteC5 : PromoteCheckpoint where
  threadId := "T1"
  expectedCheckpointId := some "c4"
  expectedStateVersion := 4
  checkpointId := "c5"
  parentCheckpointId := some "c4"
  node := "capacity"
  nextNode := some "routing"
  checkpointSizeBytes := 64
  workerConsumer := "W1"
  eventKey := "reconcile:c5"
  eventType := .reconciliation

/-- The reconciler promotes the orphan, and the runner would choose it too. -/
theorem reconcile_agrees_orphan : SameChoice roomy awaitingCapacity capacityListing "W1"
    capacityCheckpoint promoteC5 := by
  have hlisted : ListedFrom capacityStore awaitingCapacity.threadId capacityListing := by
    unfold ListedFrom
    decide
  have hpromotes : Promotes roomy awaitingCapacity capacityListing "W1" (registered awaitingCapacity) true
      capacityCheckpoint promoteC5 :=
    ⟨by decide, by decide, by decide, _, _, rfl⟩
  obtain ⟨hchoice, -⟩ := reconcile_agrees roomy awaitingCapacity capacityStore capacityListing "W1"
    (registered awaitingCapacity) true capacityStore_saved hlisted
  exact (hchoice _ _ hpromotes).2

end CountyFlow.Runtime
