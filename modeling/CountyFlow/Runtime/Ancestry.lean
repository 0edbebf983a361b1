import Mathlib.Data.List.AList
import CountyFlow.Runtime.Orphans

/-!
# Ancestry in any map of records

The two loops of `app/runtime_threads/runner.py` over a map of records that may hold anything: parents that
are not there, parents that go round in a circle, and records under ids that are not their own.  The loops
run for a number of turns, and have no answer before they end.
-/

namespace CountyFlow.Runtime.Ancestry

open CountyFlow.Core CountyFlow.Lib

/-- `Mapping[str, CheckpointRecord]`. -/
abbrev RecordsById := AList fun _ : String => CheckpointRecord

/-! ### The loops -/

/-- So many turns of the loop of `checkpoint_descends_from`. -/
def descendsTurns (checkpointId : String) (recordsById : RecordsById) :
    ℕ → Option String → List String → Option Bool
  | 0, _, _ => none
  | _ + 1, none, _ => some false
  | turns + 1, some parentId, seen =>
    if parentId ∈ seen then some false
    else if parentId = checkpointId then some true
    else match recordsById.lookup parentId with
      | none => some false
      | some parent =>
        descendsTurns checkpointId recordsById turns parent.parentCheckpointId (parentId :: seen)

/-- `checkpoint_descends_from`, if its loop has ended. -/
def checkpointDescendsFrom (turns : ℕ) (record : CheckpointRecord) (checkpointId : String)
    (recordsById : RecordsById) : Option Bool :=
  descendsTurns checkpointId recordsById turns record.parentCheckpointId []

/-- So many turns of the loop of `checkpoint_has_initial_ancestry`. -/
def initialTurns (threadId : String) (recordsById : RecordsById) :
    ℕ → Option String → List String → Option Bool
  | 0, _, _ => none
  | _ + 1, none, _ => some true
  | turns + 1, some parentId, seen =>
    if parentId ∈ seen then some false
    else match recordsById.lookup parentId with
      | none => some false
      | some parent =>
        if parent.threadId ≠ threadId ∨ parent.checkpointNamespace ≠ "" then some false
        else if zeroProgress parent = false then some false
        else initialTurns threadId recordsById turns parent.parentCheckpointId (parentId :: seen)

/-- `checkpoint_has_initial_ancestry`, if its loop has ended. -/
def checkpointHasInitialAncestry (turns : ℕ) (record : CheckpointRecord) (recordsById : RecordsById) :
    Option Bool :=
  initialTurns record.threadId recordsById turns record.parentCheckpointId []

/-! ### What they test -/

variable {recordsById : RecordsById} {record parent : CheckpointRecord} {checkpointId threadId : String}

def ParentStep (recordsById : RecordsById) (record parent : CheckpointRecord) : Prop :=
  ∃ id, record.parentCheckpointId = some id ∧ recordsById.lookup id = some parent

/-- The checkpoint is reached by one or more parent steps; the records in between are in the map. -/
def Reaches (recordsById : RecordsById) (record : CheckpointRecord) (checkpointId : String) : Prop :=
  ∃ last, Relation.ReflTransGen (ParentStep recordsById) record last ∧
    last.parentCheckpointId = some checkpointId

/-- These are all the ancestors of a record, and they are in the map. -/
def ParentChain (recordsById : RecordsById) : CheckpointRecord → List CheckpointRecord → Prop
  | record, [] => record.parentCheckpointId = none
  | record, parent :: ancestors => ParentStep recordsById record parent ∧
      ParentChain recordsById parent ancestors

/-- The parents of a record end, and all ancestors are initial. -/
def InitialChain (recordsById : RecordsById) (record : CheckpointRecord) : Prop :=
  ∃ ancestors, ParentChain recordsById record ancestors ∧ ∀ a ∈ ancestors, isInitial record.threadId a = true

/-! ### The loops are walks -/

/-- The loop of `checkpoint_descends_from`, turn by turn. -/
abbrev descendsTurn (checkpointId : String) (recordsById : RecordsById) : Option String →
    Turn (Option String) :=
  linkTurn recordsById.lookup CheckpointRecord.parentCheckpointId false (fun id => id = checkpointId) fun _ =>
    true

/-- The loop of `checkpoint_has_initial_ancestry`, turn by turn. -/
abbrev initialTurn (threadId : String) (recordsById : RecordsById) : Option String → Turn (Option String) :=
  linkTurn recordsById.lookup CheckpointRecord.parentCheckpointId true (fun _ => false) (isInitial threadId)

theorem descendsTurns_eq_walk (turns : ℕ) (parentId : Option String) (seen : List String) :
    descendsTurns checkpointId recordsById turns parentId seen =
      walk (descendsTurn checkpointId recordsById) turns parentId (seen.map some) := by
  induction turns generalizing parentId seen with
  | zero => rfl
  | succ turns ih =>
    cases parentId with
    | none => simp [descendsTurns, walk, linkTurn]
    | some id =>
      by_cases hseen : id ∈ seen
      · simp [descendsTurns, walk, hseen]
      by_cases hid : id = checkpointId
      · simp [descendsTurns, walk, linkTurn, hid]
      cases hlookup : recordsById.lookup id with
      | none => simp [descendsTurns, walk, linkTurn, hseen, hid, hlookup]
      | some parent => simp [descendsTurns, walk, linkTurn, hseen, hid, hlookup, ih]

theorem initialTurns_eq_walk (turns : ℕ) (parentId : Option String) (seen : List String) :
    initialTurns threadId recordsById turns parentId seen =
      walk (initialTurn threadId recordsById) turns parentId (seen.map some) := by
  induction turns generalizing parentId seen with
  | zero => rfl
  | succ turns ih =>
    cases parentId with
    | none => simp [initialTurns, walk, linkTurn]
    | some id =>
      by_cases hseen : id ∈ seen
      · simp [initialTurns, walk, hseen]
      cases hlookup : recordsById.lookup id with
      | none => simp [initialTurns, walk, linkTurn, hseen, hlookup]
      | some parent =>
        by_cases hhere : parent.threadId = threadId ∧ parent.checkpointNamespace = ""
        · cases hzero : zeroProgress parent with
          | false => simp [initialTurns, walk, linkTurn, isInitial, hseen, hlookup, hhere, hzero]
          | true => simp [initialTurns, walk, linkTurn, isInitial, hseen, hlookup, hhere, hzero, ih]
        · have hother : parent.threadId ≠ threadId ∨ parent.checkpointNamespace ≠ "" := by
            rwa [← not_and_or]
          simp [initialTurns, walk, linkTurn, isInitial, hseen, hlookup, hhere, hother]

variable {root : Bool} {found : String → Bool} {passes : CheckpointRecord → Bool}

theorem mem_ids (a b : Option String)
    (h : linkTurn recordsById.lookup CheckpointRecord.parentCheckpointId root found passes a = .go b) :
    a ∈ recordsById.keys.map some := by
  obtain ⟨id, record, rfl, hrecord, -⟩ := linkTurn_go h
  have hmem : id ∈ recordsById := AList.lookup_isSome.mp (by rw [hrecord]; rfl)
  exact List.mem_map_of_mem (AList.mem_keys.mp hmem)

/-! ### Where the walks lead -/

theorem linked_iff_reaches : Linked recordsById.lookup CheckpointRecord.parentCheckpointId false
    (fun id => id = checkpointId) (fun _ => true) record ↔ Reaches recordsById record checkpointId := by
  constructor
  · intro h
    induction h with
    | root hroot _ => cases hroot
    | found h hfound => exact ⟨_, .refl, h.trans (congrArg some (of_decide_eq_true hfound))⟩
    | further h hnext _ _ ih =>
      obtain ⟨last, hsteps, hlast⟩ := ih
      exact ⟨last, .head ⟨_, h, hnext⟩ hsteps, hlast⟩
  · rintro ⟨last, hsteps, hlast⟩
    induction hsteps using Relation.ReflTransGen.head_induction_on with
    | refl => exact .found hlast (decide_eq_true rfl)
    | head hstep _ ih =>
      obtain ⟨id, hid, hparent⟩ := hstep
      exact .further hid hparent rfl ih

theorem linked_iff_chain : Linked recordsById.lookup CheckpointRecord.parentCheckpointId true
    (fun _ => false) (isInitial threadId) record ↔
      ∃ ancestors, ParentChain recordsById record ancestors ∧ ∀ a ∈ ancestors,
      isInitial threadId a = true := by
  constructor
  · intro h
    induction h with
    | root _ h => exact ⟨[], h, fun a ha => by cases ha⟩
    | found _ hfound => cases hfound
    | @further record parent id h hnext hpasses _ ih =>
      obtain ⟨ancestors, hchain, hall⟩ := ih
      refine ⟨parent :: ancestors, ⟨⟨id, h, hnext⟩, hchain⟩, fun a ha => ?_⟩
      rcases List.mem_cons.mp ha with rfl | ha
      · exact hpasses
      · exact hall a ha
  · rintro ⟨ancestors, hchain, hall⟩
    induction ancestors generalizing record with
    | nil => exact .root rfl hchain
    | cons parent ancestors ih =>
      obtain ⟨⟨id, hid, hparent⟩, hrest⟩ := hchain
      have hpasses := hall parent List.mem_cons_self
      exact .further hid hparent hpasses (ih hrest fun a ha => hall a (List.mem_cons_of_mem parent ha))

theorem walk_length {turns : ℕ} (h : recordsById.keys.length < turns) :
    (recordsById.keys.map (some : String → Option String)).length < turns := by
  rwa [List.length_map]

/-- **Both tests end with the right answer**, after no more turns than there are records and one. -/
theorem ancestry_tests_exact (record : CheckpointRecord) (checkpointId : String) (recordsById : RecordsById) :
    (∃ answer, (∀ turns, recordsById.keys.length < turns →
        checkpointDescendsFrom turns record checkpointId recordsById = some answer) ∧
      (answer = true ↔ Reaches recordsById record checkpointId)) ∧
    ∃ answer, (∀ turns, recordsById.keys.length < turns →
        checkpointHasInitialAncestry turns record recordsById = some answer) ∧
      (answer = true ↔ InitialChain recordsById record) := by
  constructor
  · obtain ⟨answer, hends, hanswer⟩ :=
      @walk_settles _ (descendsTurn checkpointId recordsById) _ record.parentCheckpointId _ mem_ids
    refine ⟨answer, fun turns hturns => ?_, ?_⟩
    · exact (descendsTurns_eq_walk turns record.parentCheckpointId []).trans
        (hends turns (walk_length hturns))
    · rw [hanswer, leads_linkTurn]
      exact linked_iff_reaches
  · obtain ⟨answer, hends, hanswer⟩ :=
      @walk_settles _ (initialTurn record.threadId recordsById) _ record.parentCheckpointId _ mem_ids
    refine ⟨answer, fun turns hturns => ?_, ?_⟩
    · exact (initialTurns_eq_walk turns record.parentCheckpointId []).trans (hends turns (walk_length hturns))
    · rw [hanswer, leads_linkTurn]
      exact linked_iff_chain

/-! ### The map of a listing -/

/-- `{record.checkpoint_id: record for record in records}`. -/
def listing (records : List CheckpointRecord) : RecordsById :=
  records.foldl (fun found record => found.insert record.checkpointId record) ∅

theorem lookup_foldl_insert (records : List CheckpointRecord) (found : RecordsById) (id : String) :
    (records.foldl (fun found record => found.insert record.checkpointId record) found).lookup id =
      (Runtime.recordsById records id).or (found.lookup id) := by
  induction records generalizing found with
  | nil => rfl
  | cons record records ih =>
    rw [List.foldl_cons, ih]
    simp only [Runtime.recordsById, List.reverse_cons, List.find?_append, List.find?_singleton,
      Option.or_assoc]
    congr 1
    by_cases hid : record.checkpointId = id
    · simp [hid]
    · rw [AList.lookup_insert_ne (Ne.symm hid)]
      simp [hid]

theorem lookup_listing (records : List CheckpointRecord) :
    (listing records).lookup = Runtime.recordsById records := by
  funext id
  rw [listing, lookup_foldl_insert, AList.lookup_empty, Option.or_none]

theorem walk_listing (records : List CheckpointRecord) (parentId : Option String) :
    walk (linkTurn (Runtime.recordsById records) CheckpointRecord.parentCheckpointId root found passes)
        (records.length + 1) parentId [] =
      some (chase (linkTurn (Runtime.recordsById records) CheckpointRecord.parentCheckpointId root found
        passes) (records.length + 1) parentId []) := by
  obtain ⟨answer, hanswer, -⟩ :=
    @walk_iff_leads _ _ _ _ parentId _ (@mem_listedIds_of_go records root found passes)
      (length_listedIds_lt records)
  rw [hanswer, chase_of_walk hanswer]

theorem checkpointDescendsFrom_listing (record : CheckpointRecord) (checkpointId : String)
    (records : List CheckpointRecord) :
    checkpointDescendsFrom (records.length + 1) record checkpointId (listing records) =
      some (Runtime.checkpointDescendsFrom record checkpointId records) := by
  rw [checkpointDescendsFrom, descendsTurns_eq_walk, descendsTurn, lookup_listing, List.map_nil, walk_listing,
    Runtime.checkpointDescendsFrom, descendsLoop_eq_chase, descendsTurn_eq_link, List.map_nil]

theorem checkpointHasInitialAncestry_listing (record : CheckpointRecord) (records : List CheckpointRecord) :
    checkpointHasInitialAncestry (records.length + 1) record (listing records) =
      some (Runtime.checkpointHasInitialAncestry record records) := by
  rw [checkpointHasInitialAncestry, initialTurns_eq_walk, initialTurn, lookup_listing, List.map_nil,
    walk_listing,
    Runtime.checkpointHasInitialAncestry, initialLoop_eq_chase, initialTurn_eq_link, List.map_nil]

end CountyFlow.Runtime.Ancestry
