import Mathlib.Logic.Relation
import CountyFlow.Core.Value
import CountyFlow.Runtime.Thread

/-!
# Checkpoints, their ancestry, and the two writers that promote them

The checkpoint store keeps one record per checkpoint with an immutable link to its parent.
`CheckpointedGraphRunner` looks for the record a completed node left behind (`latestBoundary`) and
`ThreadCheckpointReconciler` for an orphan of an earlier run (`reconcileCandidate`); both ask the
same two ancestry questions of a bounded listing and then build a `PromoteCheckpoint` command.

The `while` loops carry the set of ids they have seen.  Each turn adds an id of the listing, so
`records.length + 1` turns are enough, and that is the fuel they are given.
-/

namespace CountyFlow.Runtime

open CountyFlow.Core Function

/-- `CheckpointRecord`, without the saver's own metadata. -/
structure CheckpointRecord where
  threadId : String
  checkpointId : String
  parentCheckpointId : Option String
  checkpointNamespace : String
  state : State
  serializedSizeBytes : ℕ
  deriving DecidableEq, Repr

/-- `NODE_ORDER` of the graph. -/
def nodeOrder : List String :=
  ["intake", "entity_memory", "graph_memory", "environment", "capacity", "routing", "dispatch",
    "audit"]

/-- `_next_node`: the node after `node`, `None` after the last. -/
def nextNodeAfter (node : String) : Option String := nodeOrder[nodeOrder.idxOf node + 1]?

/-- The settings of the runner and the reconciler. -/
structure RuntimeConfig where
  scanLimit : ℕ
  maxCheckpointBytes : ℕ
  deriving Repr

/-- The listing size `_latest_boundary` asks for. -/
def boundaryListing : ℕ := 10

/-- `{record.checkpoint_id: record for record in records}[id]`: the last record of an id. -/
def recordsById (records : List CheckpointRecord) (id : String) : Option CheckpointRecord :=
  records.reverse.find? fun r => r.checkpointId = id

/-- The loop of `checkpoint_descends_from`. -/
def descendsLoop (checkpointId : String) (records : List CheckpointRecord) :
    ℕ → Option String → List String → Bool
  | 0, _, _ => false
  | _ + 1, none, _ => false
  | fuel + 1, some parentId, seen =>
    if parentId ∈ seen then false
    else if parentId = checkpointId then true
    else match recordsById records parentId with
      | none => false
      | some parent =>
        descendsLoop checkpointId records fuel parent.parentCheckpointId (parentId :: seen)

def checkpointDescendsFrom (record : CheckpointRecord) (checkpointId : String)
    (records : List CheckpointRecord) : Bool :=
  descendsLoop checkpointId records (records.length + 1) record.parentCheckpointId []

/-- `value == 0`, which holds of `False`, and of a `float` or a `Decimal` without another digit. -/
def equalsZero : Value → Bool
  | .int z => z = 0
  | .bool b => !b
  | .num text => (text.toList.takeWhile fun c => c ≠ 'e' ∧ c ≠ 'E').all (· ∈ ['0', '.', '+', '-'])
  | _ => false

/-- `state.get("completed_node_count") in (None, 0)`. -/
def zeroProgress (record : CheckpointRecord) : Bool :=
  record.state.get "completed_node_count" = .none ∨ equalsZero (record.state.get "completed_node_count") =
    true

/-- The loop of `checkpoint_has_initial_ancestry`. -/
def initialLoop (threadId : String) (records : List CheckpointRecord) :
    ℕ → Option String → List String → Bool
  | 0, _, _ => false
  | _ + 1, none, _ => true
  | fuel + 1, some parentId, seen =>
    if parentId ∈ seen then false
    else match recordsById records parentId with
      | none => false
      | some parent =>
        if parent.threadId ≠ threadId ∨ parent.checkpointNamespace ≠ "" then false
        else if zeroProgress parent = false then false
        else initialLoop threadId records fuel parent.parentCheckpointId (parentId :: seen)

def checkpointHasInitialAncestry (record : CheckpointRecord) (records : List CheckpointRecord) :
    Bool :=
  initialLoop record.threadId records (records.length + 1) record.parentCheckpointId []

/-- `parent_is_continuous`: descent from the canonical checkpoint, or initial ancestry when the
thread has none yet. -/
def parentIsContinuous (thread : RuntimeThread) (records : List CheckpointRecord)
    (record : CheckpointRecord) : Bool :=
  match thread.currentCheckpointId with
  | none => checkpointHasInitialAncestry record records
  | some c => checkpointDescendsFrom record c records

/-! ### The runner -/

/-- One poll of `_latest_boundary`: the first listed record that completes `node` as the next node
of the thread. -/
def latestBoundary (thread : RuntimeThread) (node : String) (records : List CheckpointRecord) :
    Option CheckpointRecord :=
  records.find? fun record =>
    record.threadId = thread.threadId ∧
    record.state.get "last_completed_node" = .str node ∧
    record.state.get "completed_node_count" = .int (thread.checkpointCount + 1) ∧
    thread.nextNode = some node ∧
    parentIsContinuous thread records record

/-- The checks both writers make before they promote, and the command they build. -/
def promotionCommand (config : RuntimeConfig) (thread : RuntimeThread) (record : CheckpointRecord)
    (node workerConsumer eventKey : String) (eventType : PromotionEvent) :
    Except String PromoteCheckpoint :=
  if record.checkpointNamespace ≠ "" then .error "CHECKPOINT_NAMESPACE_MISMATCH"
  else if record.state.jsonSerializable = false then
    .error "CHECKPOINT_STATE_NOT_JSON_SERIALIZABLE"
  else if config.maxCheckpointBytes < record.serializedSizeBytes then
    .error "CHECKPOINT_PAYLOAD_TOO_LARGE"
  else .ok
    { threadId := thread.threadId
      expectedCheckpointId := thread.currentCheckpointId
      expectedStateVersion := thread.stateVersion
      checkpointId := record.checkpointId
      parentCheckpointId := record.parentCheckpointId
      node := node
      nextNode := nextNodeAfter node
      checkpointSizeBytes := record.serializedSizeBytes
      workerConsumer := workerConsumer
      eventKey := eventKey
      eventType := eventType }

/-- The command of `CheckpointedGraphRunner._promote`. -/
def runnerCommand (config : RuntimeConfig) (thread : RuntimeThread) (record : CheckpointRecord)
    (node workerConsumer : String) : Except String PromoteCheckpoint :=
  promotionCommand config thread record node workerConsumer ("checkpoint:" ++ record.checkpointId)
    .checkpointPromoted

/-! ### The reconciler -/

/-- `_is_continuous`: the record completes the thread's next node; `node in node_order` holds. -/
def isContinuous (thread : RuntimeThread) (record : CheckpointRecord) : Bool :=
  match thread.nextNode with
  | none => false
  | some node =>
    record.state.get "last_completed_node" = .str node ∧ node ∈ nodeOrder ∧
      record.state.get "completed_node_count" = .int (thread.checkpointCount + 1)

/-- `candidates` of `reconcile`: listed successors of the canonical checkpoint that are
continuous. -/
def reconcileCandidates (thread : RuntimeThread) (records : List CheckpointRecord) :
    List CheckpointRecord :=
  records.filter fun record =>
    record.threadId = thread.threadId ∧
    some record.checkpointId ≠ thread.currentCheckpointId ∧
    parentIsContinuous thread records record ∧
    isContinuous thread record

/-- `str(candidate.state["last_completed_node"])` of a continuous candidate. -/
def completedNode (record : CheckpointRecord) : String :=
  match record.state.get "last_completed_node" with
  | .str node => node
  | _ => ""

/-- `ThreadCheckpointReconciler.reconcile` after the listing: the command it promotes, `none` when
there is nothing to promote, or the code of the error it raises. -/
def reconcileCandidate (config : RuntimeConfig) (thread : RuntimeThread)
    (records : List CheckpointRecord) (workerConsumer : String) :
    Except String (Option PromoteCheckpoint) :=
  match reconcileCandidates thread records with
  | [] => .ok none
  | [candidate] =>
    (promotionCommand config thread candidate (completedNode candidate) workerConsumer
      ("reconcile:" ++ candidate.checkpointId) .reconciliation).map some
  | _ => .error "DIVERGENT_ORPHAN_CHECKPOINTS"

/-! ### The store and its parent relation -/

/-- The checkpoint store: the record of a checkpoint id of a thread. -/
abbrev CheckpointStore := String × String → Option CheckpointRecord

/-- `child` is recorded with the parent `parent`. -/
def ParentIn (store : CheckpointStore) (threadId : String) (child parent : String) : Prop :=
  ∃ record, store (threadId, child) = some record ∧ record.parentCheckpointId = some parent

/-- Strict descent: one or more parent links. -/
def Descends (store : CheckpointStore) (threadId : String) : String → String → Prop :=
  Relation.TransGen (ParentIn store threadId)

def CheckpointStore.empty : CheckpointStore := fun _ => none

/-- The saver files a checkpoint under its thread and id. -/
def CheckpointStore.save (store : CheckpointStore) (record : CheckpointRecord) : CheckpointStore :=
  update store (record.threadId, record.checkpointId) (some record)

/-- The stores that savers have written: the id of a saved checkpoint is new in its thread, and its parent
is a checkpoint saved before. -/
inductive Saved : CheckpointStore → Prop
  | empty : Saved CheckpointStore.empty
  | save {store : CheckpointStore} {record : CheckpointRecord} (hrest : Saved store)
      (hnew : store (record.threadId, record.checkpointId) = none)
      (hparent : ∀ parent ∈ record.parentCheckpointId, store (record.threadId, parent) ≠ none) :
      Saved (store.save record)

/-- Every proper ancestor is recorded and has completed no node. -/
def InitialAncestry (store : CheckpointStore) (threadId : String) (checkpointId : String) : Prop :=
  ∀ ancestor, Descends store threadId checkpointId ancestor →
    ∃ record, store (threadId, ancestor) = some record ∧ zeroProgress record = true

def ListedFrom (store : CheckpointStore) (threadId : String) (records : List CheckpointRecord) :
    Prop :=
  ∀ record ∈ records, record.threadId = threadId ∧
    store (threadId, record.checkpointId) = some record

/-- What makes a checkpoint a legal successor of the canonical one. -/
def Succeeds (store : CheckpointStore) (threadId : String) (checkpointId : String) :
    Option String → Prop
  | none => InitialAncestry store threadId checkpointId
  | some current => Descends store threadId checkpointId current

variable {records : List CheckpointRecord}

variable {id : String} {r : CheckpointRecord}

theorem recordsById_spec (h : recordsById records id = some r) : r ∈ records ∧ r.checkpointId = id :=
  ⟨List.mem_reverse.mp (List.mem_of_find?_eq_some h), by simpa using List.find?_some h⟩

variable {store : CheckpointStore}

/-! ### Saved checkpoints have no circle of parents -/

variable {threadId child parent : String}

theorem ParentIn.of_save {record : CheckpointRecord}
    (h : ParentIn (store.save record) threadId child parent) :
    (threadId, child) = (record.threadId, record.checkpointId) ∧ record.parentCheckpointId = some parent ∨
      (threadId, child) ≠ (record.threadId, record.checkpointId) ∧ ParentIn store threadId child parent := by
  obtain ⟨found, hfound, hlink⟩ := h
  rw [CheckpointStore.save, update_apply] at hfound
  split at hfound
  · rename_i hkey
    cases hfound
    exact .inl ⟨hkey, hlink⟩
  · rename_i hkey
    exact .inr ⟨hkey, found, hfound, hlink⟩

/-- A parent of a saved checkpoint is stored. -/
theorem Saved.parent_stored (h : Saved store)
    (hlink : ParentIn store threadId child parent) : store (threadId, parent) ≠ none := by
  induction h generalizing child parent with
  | empty =>
    obtain ⟨found, hfound, -⟩ := hlink
    cases hfound
  | @save store record _ hnew hparent ih =>
    have hstored : store (threadId, parent) ≠ none := by
      rcases hlink.of_save with ⟨hkey, hown⟩ | ⟨-, hold⟩
      · rw [(Prod.mk.inj hkey).1]
        exact hparent parent hown
      · exact ih hold
    rw [CheckpointStore.save, update_apply]
    split
    · exact Option.some_ne_none record
    · exact hstored

/-- Saved checkpoints have ranks, and every parent has a smaller one. -/
theorem Saved.ranked (h : Saved store) : ∃ rank : String × String → ℕ,
    ∀ threadId child parent, ParentIn store threadId child parent →
      rank (threadId, parent) < rank (threadId, child) := by
  induction h with
  | empty =>
    refine ⟨fun _ => 0, fun threadId child parent hlink => ?_⟩
    obtain ⟨found, hfound, -⟩ := hlink
    cases hfound
  | @save store record hrest hnew hparent ih =>
    obtain ⟨rank, hrank⟩ := ih
    -- the new checkpoint comes above its parent, which is stored already and keeps its rank
    have hnext : ∃ above, ∀ parent, record.parentCheckpointId = some parent → rank (record.threadId, parent) <
      above := by
      cases record.parentCheckpointId with
      | none => exact ⟨0, fun parent hnone => by cases hnone⟩
      | some parent =>
        refine ⟨rank (record.threadId, parent) + 1, fun parent' hsome => ?_⟩
        rw [Option.some.inj hsome]
        exact Nat.lt_succ_self _
    obtain ⟨above, habove⟩ := hnext
    have hother : ∀ threadId parent, store (threadId, parent) ≠ none →
        (threadId, parent) ≠ (record.threadId, record.checkpointId) := by
      intro threadId parent hstored hkey
      rw [hkey] at hstored
      exact hstored hnew
    refine ⟨update rank (record.threadId, record.checkpointId) above, fun threadId child parent hlink => ?_⟩
    rcases hlink.of_save with ⟨hkey, hown⟩ | ⟨hkey, hold⟩
    · obtain ⟨rfl, rfl⟩ := Prod.mk.inj hkey
      rw [update_of_ne (hother _ _ (hparent parent hown)), update_self]
      exact habove parent hown
    · rw [update_of_ne (hother _ _ (hrest.parent_stored hold)), update_of_ne hkey]
      exact hrank threadId child parent hold

/-- **No saved checkpoint descends from itself.** -/
theorem Saved.not_descends_self (h : Saved store) (threadId id : String) :
    ¬ Descends store threadId id id := by
  obtain ⟨rank, hrank⟩ := h.ranked
  have hlower : ∀ child ancestor, Descends store threadId child ancestor →
      rank (threadId, ancestor) < rank (threadId, child) := by
    intro child ancestor hdescends
    induction hdescends with
    | single hlink => exact hrank threadId _ _ hlink
    | tail _ hlink ih => exact Nat.lt_trans (hrank threadId _ _ hlink) ih
  exact fun hself => Nat.lt_irrefl _ (hlower id id hself)

/-! ### What the loops find in a listing -/

theorem ListedFrom.recordsById (hl : ListedFrom store threadId records)
    (h : recordsById records id = some r) : store (threadId, id) = some r := by
  obtain ⟨hmem, rfl⟩ := recordsById_spec h
  exact (hl r hmem).2

theorem descendsLoop_sound {c : String} (hl : ListedFrom store threadId records) :
    ∀ (fuel : ℕ) (parent : Option String) (seen : List String),
      descendsLoop c records fuel parent seen = true →
      ∃ p, parent = some p ∧ (p = c ∨ Descends store threadId p c) := by
  intro fuel
  induction fuel with
  | zero => intro parent seen h; simp [descendsLoop] at h
  | succ fuel ih =>
    intro parent seen h
    cases parent with
    | none => simp [descendsLoop] at h
    | some p =>
      refine ⟨p, rfl, ?_⟩
      unfold descendsLoop at h
      split at h
      · cases h
      · split at h
        · rename_i hp
          exact .inl hp
        · split at h
          · cases h
          · rename_i r hr
            obtain ⟨q, hq, hqc⟩ := ih _ _ h
            have hlink : ParentIn store threadId p q := ⟨r, hl.recordsById hr, hq⟩
            rcases hqc with rfl | hqc
            · exact .inr (Relation.TransGen.single hlink)
            · exact .inr (Relation.TransGen.head hlink hqc)

variable {record : CheckpointRecord}

theorem descendsFrom_sound {c : String} (hl : ListedFrom store threadId records) (hmem : record ∈ records)
    (h : checkpointDescendsFrom record c records = true) : Descends store threadId record.checkpointId c := by
  obtain ⟨p, hp, hpc⟩ := descendsLoop_sound hl _ _ _ h
  have hlink : ParentIn store threadId record.checkpointId p := ⟨record, (hl record hmem).2, hp⟩
  rcases hpc with rfl | hpc
  · exact Relation.TransGen.single hlink
  · exact Relation.TransGen.head hlink hpc

theorem initialLoop_sound {recordThread : String} (hl : ListedFrom store threadId records) :
    ∀ (fuel : ℕ) (p : String) (seen : List String),
      initialLoop recordThread records fuel (some p) seen = true →
      ∀ a, a = p ∨ Descends store threadId p a →
        ∃ r, store (threadId, a) = some r ∧ zeroProgress r = true := by
  intro fuel
  induction fuel with
  | zero => intro p seen h; simp [initialLoop] at h
  | succ fuel ih =>
    intro p seen h a ha
    unfold initialLoop at h
    split at h
    · cases h
    · split at h
      · cases h
      · rename_i r hr
        split at h
        · cases h
        · split at h
          · cases h
          · rename_i hz
            have hstore := hl.recordsById hr
            rcases ha with rfl | ha
            · exact ⟨r, hstore, by simpa using hz⟩
            · -- the first link out of `p` is the one `r` records
              obtain ⟨q, ⟨r', hr', hq⟩, hrest⟩ := Relation.TransGen.head'_iff.mp ha
              rw [hstore, Option.some.injEq] at hr'
              subst hr'
              rw [hq] at h
              refine ih q _ h a ?_
              rcases Relation.reflTransGen_iff_eq_or_transGen.mp hrest with h' | h'
              · exact .inl h'
              · exact .inr h'

theorem hasInitialAncestry_sound (hl : ListedFrom store threadId records) (hmem : record ∈ records)
    (h : checkpointHasInitialAncestry record records = true) :
    InitialAncestry store threadId record.checkpointId := by
  intro a ha
  obtain ⟨q, ⟨r', hr', hq⟩, hrest⟩ := Relation.TransGen.head'_iff.mp ha
  rw [(hl record hmem).2, Option.some.injEq] at hr'
  subst hr'
  unfold checkpointHasInitialAncestry at h
  rw [hq] at h
  refine initialLoop_sound hl _ q _ h a ?_
  rcases Relation.reflTransGen_iff_eq_or_transGen.mp hrest with h' | h'
  · exact .inl h'
  · exact .inr h'

variable {thread : RuntimeThread}

theorem parentIsContinuous_sound (hl : ListedFrom store thread.threadId records) (hmem : record ∈ records)
    (h : parentIsContinuous thread records record = true) :
    Succeeds store thread.threadId record.checkpointId thread.currentCheckpointId := by
  unfold parentIsContinuous at h
  cases hc : thread.currentCheckpointId with
  | none =>
    rw [hc] at h
    exact hasInitialAncestry_sound hl hmem h
  | some c =>
    rw [hc] at h
    exact descendsFrom_sound hl hmem h

/-! ### What the built commands carry -/

variable {config : RuntimeConfig} {node w : String} {command : PromoteCheckpoint}

theorem promotionCommand_ok {key : String} {kind : PromotionEvent}
    (h : promotionCommand config thread record node w key kind = .ok command) :
    command.threadId = thread.threadId ∧
      command.expectedCheckpointId = thread.currentCheckpointId ∧
      command.expectedStateVersion = thread.stateVersion ∧
      command.checkpointId = record.checkpointId := by
  unfold promotionCommand at h
  split at h
  · cases h
  · split at h
    · cases h
    · split at h
      · cases h
      · rw [← Except.ok.inj h]
        exact ⟨rfl, rfl, rfl, rfl⟩

theorem latestBoundary_succeeds (hl : ListedFrom store thread.threadId records)
    (h : latestBoundary thread node records = some record) :
    Succeeds store thread.threadId record.checkpointId thread.currentCheckpointId := by
  have hmem : record ∈ records := List.mem_of_find?_eq_some h
  have hprop := List.find?_some h
  simp only [decide_eq_true_eq] at hprop
  exact parentIsContinuous_sound hl hmem hprop.2.2.2.2

theorem reconcileCandidate_ok (hl : ListedFrom store thread.threadId records)
    (h : reconcileCandidate config thread records w = .ok (some command)) :
    command.threadId = thread.threadId ∧
      command.expectedCheckpointId = thread.currentCheckpointId ∧
      (∃ record ∈ records, record.checkpointId = command.checkpointId) ∧
      Succeeds store thread.threadId command.checkpointId thread.currentCheckpointId := by
  unfold reconcileCandidate at h
  split at h
  · cases h
  · rename_i candidate hcand
    have hmem : candidate ∈ reconcileCandidates thread records := by simp [hcand]
    unfold reconcileCandidates at hmem
    rw [List.mem_filter] at hmem
    simp only [decide_eq_true_eq] at hmem
    obtain ⟨cmd, hcmd, hsome⟩ : ∃ cmd, promotionCommand config thread candidate
        (completedNode candidate) w ("reconcile:" ++ candidate.checkpointId) .reconciliation
          = .ok cmd ∧ some cmd = some command := by
      cases hp : promotionCommand config thread candidate (completedNode candidate) w
          ("reconcile:" ++ candidate.checkpointId) .reconciliation with
      | error e => rw [hp] at h; cases h
      | ok cmd => rw [hp] at h; exact ⟨cmd, rfl, Except.ok.inj h⟩
    cases hsome
    obtain ⟨h1, h2, -, h4⟩ := promotionCommand_ok hcmd
    refine ⟨h1, h2, ⟨candidate, hmem.1, h4.symm⟩, ?_⟩
    rw [h4]
    exact parentIsContinuous_sound hl hmem.1 hmem.2.2.2.1
  · cases h

end CountyFlow.Runtime
