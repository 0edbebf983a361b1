import CountyFlow.GraphMemory.Store

/-!
# Graph facts are read back

A reader's `value or default` replaces a confidence of 0, an empty `source_type` and a version of 0, though
the writers accept them.
-/

namespace CountyFlow.GraphMemory

open CountyFlow.Lib
open CountyFlow.Core (State Value)
open CountyFlow.Memory (EntityType RelationType)

/-! ### Properties -/

/-- A value of a JSON document; an integer is one that Python writes. -/
inductive JsonValue : Value → Prop
  | none : JsonValue .none
  | bool (b : Bool) : JsonValue (.bool b)
  | int {z : ℤ} : (Core.intText z).isSome → JsonValue (.int z)
  | num (text : String) : JsonValue (.num text)
  | str (s : String) : JsonValue (.str s)
  | list {items : List Value} : (∀ v ∈ items, JsonValue v) → JsonValue (.list items)
  | dict {entries : State} : (entries.map Prod.fst).Nodup → (∀ entry ∈ entries, JsonValue entry.2) →
      JsonValue (.dict entries)

theorem copyItems_of_copy {values : List Value} (h : ∀ v ∈ values, v.given.copy = some v) :
    Core.Given.copyItems (Core.Value.givenItems values) = some values := by
  induction values with
  | nil => rfl
  | cons v values ih =>
    have hvalues := ih fun w hw => h w (List.mem_cons_of_mem _ hw)
    simp [Core.Value.givenItems, Core.Given.copyItems, h v List.mem_cons_self, hvalues]

theorem copy_of_json {v : Value} (h : JsonValue v) : v.given.copy = some v := by
  induction h with
  | none => rfl
  | bool b => rfl
  | int hz =>
    obtain ⟨text, htext⟩ := Option.isSome_iff_exists.mp hz
    simp [Core.Value.given, Core.Given.copy, htext]
  | num text => rfl
  | str s => rfl
  | list _ ih => simp [Core.Value.given, Core.Given.copy, copyItems_of_copy ih]
  | @dict entries hnodup _ ih =>
    have hupdate : State.update [] entries = entries := by
      have h : State.update [] entries = [] ++ entries := State.update_of_nodup hnodup
      rwa [List.nil_append] at h
    simp [Core.Value.given, Core.Value.givenEntries_eq, Core.Given.copy, Core.Given.copyEntries_given ih,
      hupdate]

def GraphEntity.Json (entity : GraphEntity) : Prop := JsonValue (.dict entity.properties)

/-! ### Entities -/

theorem ofValue_text (t : EntityType) : EntityType.ofValue (entityTypeText t) = some t := by
  cases t <;> rfl

theorem entityKey_of_read {e e' : GraphEntity} (h : entity (.of e) = .ok e') :
    e'.entityKey = e.entityKey := by
  have hcreate : ∀ properties,
    GraphEntity.create (entityTypeText e.entityType) e.entityId e.displayName properties =
      .ok e' → e'.entityKey = e.entityKey := by
    intro properties hcreate
    unfold GraphEntity.create at hcreate
    rw [ofValue_text] at hcreate
    dsimp only at hcreate
    split at hcreate
    · cases hcreate
    · split at hcreate
      · cases hcreate
      · split at hcreate
        · cases hcreate
          rfl
        · cases hcreate
  unfold entity at h
  split at h
  · exact hcreate _ h
  · exact hcreate _ h
  · cases h

theorem entity_of {e : GraphEntity} (h : e.Json) : entity (.of e) = .ok e := by
  have hreread : reread e.properties = some (.dict e.properties) := copy_of_json h
  have hproperties : (Node.of e).propertiesJson = some (.dict e.properties) := hreread
  unfold entity
  rw [hproperties]
  show GraphEntity.create (entityTypeText e.entityType) e.entityId e.displayName e.properties = .ok e
  unfold GraphEntity.create
  rw [ofValue_text]
  dsimp only
  rw [dif_neg e.id_not_empty, dif_neg e.name_not_empty, dif_pos e.serializable]

/-! ### What the store holds -/

inductive Write where
  | upsertEntity (entity : GraphEntity)
  | upsertRelation (relation : GraphRelation)
  | stage (p : GraphProjection)
  | activate (p : GraphProjection)
  | retirePrevious (p : GraphProjection)

variable {now : ℤ} {maxHops : ℕ} {startKey : String} {route : Route}

namespace Store

def empty : Store := ⟨Table.empty, []⟩

variable (projectionId : String → ℤ → String)

def write (s : Store) : Write → Store
  | .upsertEntity entity => s.upsertEntity entity
  | .upsertRelation relation => s.upsertRelation relation
  | .stage p => s.stage projectionId p
  | .activate p => s.activate projectionId p
  | .retirePrevious p => s.retirePrevious p

def run (writes : List Write) : Store := writes.foldl (write projectionId) empty

/-- Every node is that of an entity. -/
def Sound (s : Store) : Prop := ∀ node ∈ s.nodes.rows, ∃ e : GraphEntity, node = .of e

variable {projectionId} {s : Store}

theorem Sound.upsertEntity (h : s.Sound) (e : GraphEntity) : (s.upsertEntity e).Sound := by
  intro node hnode
  have hfind := Table.find_of_mem hnode
  rw [Store.upsertEntity, Table.find_upsert] at hfind
  split at hfind
  · cases hfind
    exact ⟨e, rfl⟩
  · exact h node (Table.find_mem hfind)

theorem Sound.write (h : s.Sound) (w : Write) : (s.write projectionId w).Sound := by
  cases w with
  | upsertEntity e => exact h.upsertEntity e
  | upsertRelation r =>
    show (s.upsertRelation r).Sound
    unfold Store.upsertRelation
    dsimp only
    split
    · exact h
    · exact h
  | stage p => exact (h.upsertEntity p.source).upsertEntity p.target
  | activate p => exact h
  | retirePrevious p => exact h

theorem sound_run (writes : List Write) : (run projectionId writes).Sound := by
  have hfold : ∀ s : Store, s.Sound → (writes.foldl (write projectionId) s).Sound := by
    induction writes with
    | nil => exact fun s h => h
    | cons w writes ih => exact fun s h => ih _ (h.write w)
  exact hfold empty nofun

/-! ### Paths -/

theorem hopsFrom_spec {key : String} {seen : List String} (hkey : key ∈ seen) {hops : List (Edge × Node)}
    (h : hops ∈ s.hopsFrom now maxHops key seen) :
    (∀ hop ∈ hops, hop.2 ∈ s.nodes.rows) ∧ (hops.map fun hop => hop.2.entityKey).Nodup ∧
      (∀ hop ∈ hops, hop.2.entityKey ∉ seen) ∧
      ∀ hop ∈ hops, ∀ k, k = hop.1.source ∨ k = hop.1.target → k ∈ key :: hops.map fun hop =>
        hop.2.entityKey := by
  induction maxHops generalizing key seen hops with
  | zero => cases h
  | succ maxHops ih =>
    unfold hopsFrom at h
    obtain ⟨e, -, h⟩ := List.mem_flatMap.mp h
    obtain ⟨next, hnext, h⟩ := List.mem_flatMap.mp h
    have hends : ∀ k, k = e.source ∨ k = e.target → k = key ∨ k = next := by
      intro k hk
      unfold Edge.others at hnext
      rcases List.mem_append.mp hnext with hin | hin
      · split at hin
        · rename_i hsource
          rw [← hsource, List.mem_singleton.mp hin]
          exact hk
        · cases hin
      · split at hin
        · rename_i htarget
          rw [← htarget, List.mem_singleton.mp hin]
          exact hk.symm
        · cases hin
    split at h
    · cases h
    · rename_i node hnode
      obtain ⟨hmem, rfl⟩ := Table.find_eq_some_iff.mp hnode
      split at h
      · cases h
      · rename_i hnew
        rcases List.mem_cons.mp h with rfl | h
        · refine ⟨by simpa using hmem, by simp, by simpa using hnew, ?_⟩
          rintro hop hhop k hk
          rw [List.mem_singleton.mp hhop] at hk
          simpa using hends k hk
        · obtain ⟨rest, hrest, rfl⟩ := List.mem_map.mp h
          obtain ⟨hrows, hnodup, hseen, hbetween⟩ := ih List.mem_cons_self hrest
          refine ⟨?_, ?_, ?_, ?_⟩
          · exact List.forall_mem_cons.mpr ⟨hmem, hrows⟩
          · refine List.nodup_cons.mpr ⟨fun hin => ?_, hnodup⟩
            obtain ⟨hop, hhop, heq⟩ := List.mem_map.mp hin
            exact hseen hop hhop (heq ▸ List.mem_cons_self)
          · exact List.forall_mem_cons.mpr ⟨hnew,
              fun hop hhop hin => hseen hop hhop (List.mem_cons_of_mem _ hin)⟩
          · refine List.forall_mem_cons.mpr ⟨fun k hk => ?_, fun hop hhop k hk => ?_⟩
            · rcases hends k hk with rfl | rfl
              · exact List.mem_cons_self
              · simp
            · exact List.mem_cons_of_mem _ (hbetween hop hhop k hk)

theorem routes_spec (h : route ∈ s.routes now startKey maxHops) :
    (∀ node ∈ route.nodes, node ∈ s.nodes.rows) ∧ (route.nodes.map Node.entityKey).Nodup ∧
      ∀ e ∈ route.edges, ∀ k, k = e.source ∨ k = e.target → ∃ node ∈ route.nodes, node.entityKey = k := by
  unfold routes at h
  split at h
  · cases h
  · rename_i start hstart
    obtain ⟨hmem, rfl⟩ := Table.find_eq_some_iff.mp hstart
    obtain ⟨hops, hhops, rfl⟩ := List.mem_map.mp h
    obtain ⟨hrows, hnodup, hseen, hbetween⟩ := hopsFrom_spec List.mem_cons_self hhops
    have hkeys : (hops.map Prod.snd).map Node.entityKey = hops.map fun hop => hop.2.entityKey := List.map_map
    refine ⟨List.forall_mem_cons.mpr ⟨hmem, ?_⟩, ?_, ?_⟩
    · exact List.forall_mem_map.mpr hrows
    · show (start.entityKey :: (hops.map Prod.snd).map Node.entityKey).Nodup
      rw [hkeys]
      refine List.nodup_cons.mpr ⟨fun hin => ?_, hnodup⟩
      obtain ⟨hop, hhop, heq⟩ := List.mem_map.mp hin
      exact hseen hop hhop (heq ▸ List.mem_cons_self)
    · intro e he k hk
      obtain ⟨hop, hhop, rfl⟩ := List.mem_map.mp he
      have hin := hbetween hop hhop k hk
      rw [← hkeys] at hin
      exact List.mem_map.mp (show k ∈ (start :: hops.map Prod.snd).map Node.entityKey from hin)

end Store

variable {entities : List GraphEntity}

theorem byKey_eq {nodes : List Node} (hnodes : ∀ node ∈ nodes, ∃ e : GraphEntity, node = .of e)
    (hnodup : (nodes.map Node.entityKey).Nodup) (h : nodes.mapM entity = .ok entities) {node : Node}
    (hnode : node ∈ nodes) : byKey entities node.entityKey = entity node := by
  have hreads := forall₂_of_mapM h
  have hkey : ∀ n ∈ nodes, ∀ e, entity n = .ok e → e.entityKey = n.entityKey := by
    intro n hn e he
    obtain ⟨e', rfl⟩ := hnodes n hn
    exact entityKey_of_read he
  have hkeys : entities.map GraphEntity.entityKey = nodes.map Node.entityKey := by
    clear hnodup hnode h hnodes
    induction hreads with
    | nil => rfl
    | cons hread _ ih =>
      rw [List.map_cons, List.map_cons, hkey _ List.mem_cons_self _ hread,
        ih fun n hn => hkey n (List.mem_cons_of_mem _ hn)]
  obtain ⟨e, he⟩ := exists_mapM_eq_ok.mp ⟨entities, h⟩ node hnode
  have hmem : e ∈ entities := (mem_of_mapM h).mpr ⟨node, hnode, he⟩
  have hdistinct : (entities.reverse.map GraphEntity.entityKey).Nodup := by
    rw [List.map_reverse, List.nodup_reverse, hkeys]
    exact hnodup
  have hfound := Table.find_of_mem (t := ⟨entities.reverse, hdistinct⟩) (List.mem_reverse.mpr hmem)
  rw [hkey node hnode e he] at hfound
  unfold Table.find at hfound
  unfold byKey
  rw [hfound, he]

variable {e : Edge}

theorem hop_eq_related {s : Store} (hs : s.Sound) (hroute : route ∈ s.routes now startKey maxHops)
    (he : e ∈ route.edges) (h : route.nodes.mapM entity = .ok entities) : hop entities e = s.related e := by
  obtain ⟨hrows, hnodup, hends⟩ := Store.routes_spec hroute
  have hnodes : ∀ node ∈ route.nodes, ∃ e : GraphEntity, node = .of e := fun node hnode =>
    hs node (hrows node hnode)
  obtain ⟨source, hsource, hsourceKey⟩ := hends e he e.source (.inl rfl)
  obtain ⟨target, htarget, htargetKey⟩ := hends e he e.target (.inr rfl)
  have hfindSource := Table.find_of_mem (hrows source hsource)
  have hfindTarget := Table.find_of_mem (hrows target htarget)
  have hreadSource := byKey_eq hnodes hnodup h hsource
  have hreadTarget := byKey_eq hnodes hnodup h htarget
  rw [hsourceKey] at hfindSource hreadSource
  rw [htargetKey] at hfindTarget hreadTarget
  unfold hop Store.related
  rw [hfindSource, hfindTarget, hreadSource, hreadTarget]
  rfl

/-! ### What the edges hold -/

theorem mem_merge {matched : Edge → Bool} {new : Edge} {set : Edge → Edge} {edges : List Edge}
    (h : e ∈ merge matched new set edges) :
    (∃ old, (matched old = true ∨ old = new) ∧ e = set old) ∨ matched e = false := by
  unfold merge at h
  split at h
  · obtain ⟨old, hold, rfl⟩ := List.mem_map.mp h
    by_cases hmatched : matched old = true
    · exact .inl ⟨old, .inl hmatched, if_pos hmatched⟩
    · rw [if_neg hmatched]
      exact .inr (Bool.eq_false_iff.mpr hmatched)
  · rename_i hnone
    rcases List.mem_append.mp h with hold | hnew
    · refine .inr (Bool.eq_false_iff.mpr fun hmatched => hnone ?_)
      exact List.any_eq_true.mpr ⟨e, hold, hmatched⟩
    · exact .inl ⟨new, .inr rfl, List.mem_singleton.mp hnew⟩

theorem exists_merge (matched : Edge → Bool) (new : Edge) (set : Edge → Edge) (edges : List Edge) :
    ∃ old, (matched old = true ∨ old = new) ∧ set old ∈ merge matched new set edges := by
  unfold merge
  split
  · rename_i hany
    obtain ⟨old, hold, hmatched⟩ := List.any_eq_true.mp hany
    exact ⟨old, .inl hmatched, List.mem_map.mpr ⟨old, hold, if_pos hmatched⟩⟩
  · exact ⟨new, .inr rfl, List.mem_append_right _ (List.mem_singleton.mpr rfl)⟩

/-- The edge holds the values of a relation: setting them changes nothing. -/
def Edge.Holds (e : Edge) (values : RelationValues) : Prop :=
  e.links values.source.entityKey values.target.entityKey values.relationType = true ∧ e.setValues values = e

theorem links_iff {source target : String} {relationType : RelationType} :
    e.links source target relationType = true ↔
      e.source = source ∧ e.target = target ∧ e.relationType = relationType :=
  decide_eq_true_iff

variable {values : RelationValues}

theorem rebuilt_iff (h : e.Holds values) (hrange : 0 ≤ values.confidence ∧ values.confidence ≤ 1)
    (source target : GraphEntity) :
    (∃ r, rebuilt source target e = .ok r ∧ r.toRelationValues = values) ↔
      source = values.source ∧ target = values.target ∧ values.confidence ≠ 0 ∧ values.sourceType ≠ "" ∧
        1 ≤ values.version := by
  obtain ⟨hlinks, hset⟩ := h
  obtain ⟨-, -, htype⟩ := links_iff.mp hlinks
  rw [← hset]
  constructor
  · rintro ⟨r, hr, hvalues⟩
    have hversion := r.version_positive
    rw [hvalues] at hversion
    unfold rebuilt GraphRelation.create at hr
    split at hr
    · split at hr
      · cases hr
        refine ⟨congrArg RelationValues.source hvalues, congrArg RelationValues.target hvalues,
          fun hzero => ?_, fun hempty => ?_, hversion⟩
        · have hconfidence := congrArg RelationValues.confidence hvalues
          simp [Edge.setValues, orElse, hzero] at hconfidence
        · have hsourceType := congrArg RelationValues.sourceType hvalues
          simp [Edge.setValues, orText, hempty] at hsourceType
      · cases hr
    · cases hr
  · rintro ⟨rfl, rfl, hconfidence, hsourceType, hversion⟩
    refine ⟨⟨values, hrange, hversion⟩, ?_, rfl⟩
    have hvalues : RelationValues.mk values.source e.relationType values.target
      (orElse (some values.confidence) 1)
        (orText (some values.sourceType) "graph") values.evidence (orElse (some values.version) 1)
        (orText (some values.timestamp) "") = values := by
      have hpositive : values.version ≠ 0 := by omega
      have htimestamp : orText (some values.timestamp) "" = values.timestamp := by
        unfold orText
        split
        · rename_i hempty
          exact hempty.symm
        · rfl
      rw [htype, htimestamp]
      simp [orElse, orText, hconfidence, hsourceType, hpositive]
    show GraphRelation.create
      (.mk values.source e.relationType values.target (orElse (some values.confidence) 1)
      (orText (some values.sourceType) "graph") values.evidence (orElse (some values.version) 1)
      (orText (some values.timestamp) "")) = _
    rw [hvalues, GraphRelation.create, dif_pos hrange, dif_pos hversion]

/-! ### Reading what was written -/

/-- Both readers rebuild an edge as the relation that was written. -/
structure ReadBack (now : ℤ) (s : Store) (e : Edge) (values : RelationValues) : Prop where
  related : ∃ r, s.related e = .ok r ∧ r.toRelationValues = values
  paths : ∀ startKey maxHops, ∀ route ∈ s.routes now startKey maxHops, e ∈ route.edges → ∀ entities,
    route.nodes.mapM entity = .ok entities → ∃ r, hop entities e = .ok r ∧ r.toRelationValues = values

/-- Two entities of one key are one node. -/
def OneEntity (source target : GraphEntity) : Prop := source.entityKey = target.entityKey → source = target

theorem readBack_iff {s : Store} (hs : s.Sound) (h : e.Holds values)
    (hrange : 0 ≤ values.confidence ∧ values.confidence ≤ 1) {before : Table Node Node.entityKey}
    (hnodes : s.nodes = (before.upsert (.of values.source)).upsert (.of values.target))
    (hsource : values.source.Json) (htarget : values.target.Json) :
    ReadBack now s e values ↔ values.confidence ≠ 0 ∧ values.sourceType ≠ "" ∧ 1 ≤ values.version ∧
      OneEntity values.source values.target := by
  obtain ⟨hsourceKey, htargetKey, -⟩ := links_iff.mp h.1
  -- the target is written last, over a source of the same key
  let first := if values.source.entityKey = values.target.entityKey then values.target else values.source
  have hfindTarget : s.nodes.find e.target = some (.of values.target) := by
    rw [hnodes, htargetKey, Table.find_upsert]
    exact if_pos rfl
  have hfindSource : s.nodes.find e.source = some (.of first) := by
    rw [hnodes, hsourceKey, Table.find_upsert, Table.find_upsert]
    by_cases hkey : values.source.entityKey = values.target.entityKey
    · rw [show first = values.target from if_pos hkey]
      exact if_pos hkey
    · rw [show first = values.source from if_neg hkey]
      exact (if_neg hkey).trans (if_pos rfl)
  have hfirst : entity (.of first) = .ok first := by
    by_cases hkey : values.source.entityKey = values.target.entityKey
    · rw [show first = values.target from if_pos hkey]
      exact entity_of htarget
    · rw [show first = values.source from if_neg hkey]
      exact entity_of hsource
  have hrelated : s.related e = rebuilt first values.target e := by
    unfold Store.related
    rw [hfindSource, hfindTarget]
    simp only [relation, hfirst, entity_of htarget]
    rfl
  have hone : first = values.source ↔ OneEntity values.source values.target := by
    by_cases hkey : values.source.entityKey = values.target.entityKey
    · rw [show first = values.target from if_pos hkey]
      exact ⟨fun heq _ => heq.symm, fun heq => (heq hkey).symm⟩
    · exact iff_of_true (if_neg hkey) fun heq => absurd heq hkey
  have hread := rebuilt_iff h hrange first values.target
  rw [← hrelated, hone] at hread
  constructor
  · intro hback
    obtain ⟨hentity, -, hconfidence, hsourceType, hversion⟩ := hread.mp hback.related
    exact ⟨hconfidence, hsourceType, hversion, hentity⟩
  · rintro ⟨hconfidence, hsourceType, hversion, hentity⟩
    have hback := hread.mpr ⟨hentity, rfl, hconfidence, hsourceType, hversion⟩
    refine ⟨hback, fun startKey maxHops route hroute he entities hentities => ?_⟩
    rw [hop_eq_related hs hroute he hentities]
    exact hback

namespace Store

def writeRelation (s : Store) (relation : GraphRelation) : Store :=
  ((s.upsertEntity relation.source).upsertEntity relation.target).upsertRelation relation

def writeProjection (projectionId : String → ℤ → String) (s : Store) (p : GraphProjection) : Store :=
  (s.stage projectionId p).activate projectionId p

variable {projectionId : String → ℤ → String} {s : Store}

theorem writeRelation_eq (s : Store) (relation : GraphRelation) :
    s.writeRelation relation =
      ⟨(s.nodes.upsert (.of relation.source)).upsert (.of relation.target),
        merge (Edge.links relation.source.entityKey relation.target.entityKey relation.relationType)
          { source := relation.source.entityKey
            target := relation.target.entityKey
            relationType := relation.relationType }
          (Edge.setValues relation.toRelationValues) s.edges⟩ := by
  have htarget : (((s.nodes.upsert (.of relation.source)).upsert (.of relation.target)).find
      relation.target.entityKey).isSome := by
    rw [Table.find_upsert,
      if_pos (show relation.target.entityKey = (Node.of relation.target).entityKey from rfl)]
    rfl
  have hsource : (((s.nodes.upsert (.of relation.source)).upsert (.of relation.target)).find
      relation.source.entityKey).isSome := by
    rw [Table.find_upsert, Table.find_upsert]
    split
    · rfl
    · rw [if_pos (show relation.source.entityKey = (Node.of relation.source).entityKey from rfl)]
      rfl
  exact if_pos ⟨hsource, htarget⟩

theorem writeRelation_readBack (hs : s.Sound) (now : ℤ) {relation : GraphRelation}
    (hsource : relation.source.Json)
    (htarget : relation.target.Json) (he : e ∈ (s.writeRelation relation).edges)
    (hlinks : e.links relation.source.entityKey relation.target.entityKey relation.relationType = true) :
    ReadBack now (s.writeRelation relation) e relation.toRelationValues ↔
      relation.confidence ≠ 0 ∧ relation.sourceType ≠ "" ∧ OneEntity relation.source relation.target := by
  have hsound : (s.writeRelation relation).Sound :=
    @Sound.write (fun f _ => f) _ ((hs.upsertEntity relation.source).upsertEntity relation.target)
      (.upsertRelation relation)
  have hnodes := congrArg Store.nodes (writeRelation_eq s relation)
  have hholds : e.Holds relation.toRelationValues := by
    refine ⟨hlinks, ?_⟩
    rw [writeRelation_eq] at he
    rcases mem_merge he with ⟨old, -, rfl⟩ | hnot
    · rfl
    · rw [hlinks] at hnot
      cases hnot
  rw [readBack_iff hsound hholds relation.confidence_range hnodes hsource htarget]
  simp [relation.version_positive]

theorem writeProjection_readBack (hs : s.Sound) (now : ℤ) {p : GraphProjection} (hsource : p.source.Json)
    (htarget : p.target.Json) (hlow : 0 ≤ p.confidence) (hhigh : p.confidence ≤ 1)
    (he : e ∈ (s.writeProjection projectionId p).edges)
    (hlinks : e.links p.source.entityKey p.target.entityKey p.relationType = true)
    (hid : e.projectionId = some (projectionId p.factKey p.controlVersion)) :
    ReadBack now (s.writeProjection projectionId p) e p.values ↔
      2 ^ (-1075 : ℤ) < p.confidence ∧ p.sourceType ≠ "" ∧ 1 ≤ p.controlVersion ∧
      OneEntity p.source p.target := by
  have hsound : (s.writeProjection projectionId p).Sound := (hs.write (.stage p)).write (.activate p)
  have hholds : e.Holds p.values := by
    refine ⟨hlinks, ?_⟩
    obtain ⟨staged, hstaged, rfl⟩ := List.mem_map.mp he
    have hset : staged.setValues p.values = staged := by
      unfold stage at hstaged
      dsimp only at hstaged
      rcases mem_merge hstaged with ⟨old, -, rfl⟩ | hnot
      · rfl
      · refine absurd (decide_eq_true ?_) (Bool.eq_false_iff.mp hnot)
        split at hlinks <;> split at hid <;> exact ⟨hlinks, hid⟩
    split
    · exact congrArg (fun e : Edge => { e with projectionStatus := some .active }) hset
    · exact hset
  have hvanish : p.values.confidence ≠ 0 ↔ 2 ^ (-1075 : ℤ) < p.confidence := by
    rw [← not_le]
    exact not_congr (binary64_eq_zero_iff hlow)
  rw [readBack_iff hsound hholds (binary64_mem_unit hlow hhigh) rfl hsource htarget, hvanish]
  rfl

theorem exists_writeRelation (s : Store) (relation : GraphRelation) : ∃ e ∈ (s.writeRelation relation).edges,
    e.links relation.source.entityKey relation.target.entityKey relation.relationType = true := by
  rw [writeRelation_eq]
  dsimp only
  obtain ⟨old, hold, hmem⟩ := exists_merge _ _ _ s.edges
  refine ⟨_, hmem, ?_⟩
  rcases hold with hlinks | rfl
  · exact hlinks
  · exact links_iff.mpr ⟨rfl, rfl, rfl⟩

def projected (projectionId : String → ℤ → String) (p : GraphProjection) (e : Edge) : Prop :=
  e.links p.source.entityKey p.target.entityKey p.relationType = true ∧
    e.projectionId = some (projectionId p.factKey p.controlVersion)

theorem exists_writeProjection (s : Store) (p : GraphProjection) :
    ∃ e ∈ (s.writeProjection projectionId p).edges, projected projectionId p e := by
  have hstaged : ∃ e ∈ (s.stage projectionId p).edges, projected projectionId p e := by
    unfold stage
    dsimp only
    obtain ⟨old, hold, hmem⟩ := exists_merge _ _ _ s.edges
    refine ⟨_, hmem, ?_⟩
    rcases hold with hmatched | rfl
    · have hprojected : projected projectionId p old := by simpa [projected] using hmatched
      exact hprojected
    · exact ⟨links_iff.mpr ⟨rfl, rfl, rfl⟩, rfl⟩
  obtain ⟨e, he, hprojected⟩ := hstaged
  refine ⟨_, List.mem_map_of_mem he, ?_⟩
  rw [if_pos hprojected.2]
  exact hprojected

end Store

/-- **Graph facts are read back as they were written exactly when a reader replaces none of their values**:
after any writes, a relation or a projection leaves an edge, and both readers rebuild it as it was written
if and only if its confidence, as a float, is not 0, its `source_type` is not empty, its version is
positive, and its end points are not two entities of one key. -/
theorem graph_facts_read_back_iff (projectionId : String → ℤ → String) (writes : List Write) (now : ℤ) :
    (∀ relation : GraphRelation, relation.source.Json → relation.target.Json →
      let s := (Store.run projectionId writes).writeRelation relation
      let written := fun e : Edge => e ∈ s.edges ∧
        e.links relation.source.entityKey relation.target.entityKey relation.relationType = true
      (∃ e, written e) ∧ ∀ e, written e → (ReadBack now s e relation.toRelationValues ↔
        relation.confidence ≠ 0 ∧ relation.sourceType ≠ "" ∧ OneEntity relation.source relation.target)) ∧
    ∀ p : GraphProjection, p.source.Json → p.target.Json → 0 ≤ p.confidence → p.confidence ≤ 1 →
      let s := (Store.run projectionId writes).writeProjection projectionId p
      let written := fun e : Edge => e ∈ s.edges ∧ Store.projected projectionId p e
      (∃ e, written e) ∧ ∀ e, written e → (ReadBack now s e p.values ↔
        2 ^ (-1075 : ℤ) < p.confidence ∧ p.sourceType ≠ "" ∧ 1 ≤ p.controlVersion ∧
        OneEntity p.source p.target) := by
  have hs : (Store.run projectionId writes).Sound := Store.sound_run writes
  refine ⟨fun relation hsource htarget => ⟨Store.exists_writeRelation _ relation, fun e he => ?_⟩,
    fun p hsource htarget hlow hhigh => ⟨Store.exists_writeProjection _ p, fun e he => ?_⟩⟩
  · exact Store.writeRelation_readBack hs now hsource htarget he.1 he.2
  · exact Store.writeProjection_readBack hs now hsource htarget hlow hhigh he.1 he.2.1 he.2.2

def driver : GraphEntity where
  entityType := .driver
  entityId := "D-1"
  displayName := "First"
  properties := []
  id_not_empty := by decide +kernel
  name_not_empty := by decide +kernel
  serializable := rfl

def vehicle : GraphEntity :=
  { driver with entityType := .vehicle, entityId := "V-1", id_not_empty := by decide +kernel }

def doubtful : GraphRelation where
  source := driver
  relationType := .drives
  target := vehicle
  confidence := 0
  sourceType := "domain"
  evidence := none
  version := 1
  timestamp := "2026-01-01T00:00:00+00:00"
  confidence_range := by decide +kernel
  version_positive := by decide

theorem bounded_zero : (0 : ℤ).natAbs < Memory.dayMicroseconds := by decide

def projection : GraphProjection where
  mutationId := "M-1"
  factKey := "F-1"
  controlVersion := 1
  source := driver
  relationType := .drives
  target := vehicle
  confidence := 0
  sourceType := "domain"
  evidence := none
  expiresAt := none
  timestamp := ⟨⟨0, by decide⟩, .fixed ⟨0, bounded_zero⟩⟩

theorem graph_facts_read_back_iff_doubtful :
    (∃ e, ¬ ReadBack 0 ((Store.run (fun f _ => f) []).writeRelation doubtful) e doubtful.toRelationValues) ∧
      ∃ e, ¬ ReadBack 0 ((Store.run (fun f _ => f) []).writeProjection (fun f _ => f) projection) e
        projection.values := by
  have hjson : JsonValue (.dict []) := .dict List.nodup_nil nofun
  obtain ⟨hrelation, hprojection⟩ := graph_facts_read_back_iff (fun f _ => f) [] 0
  obtain ⟨⟨e, he⟩, hiff⟩ := hrelation doubtful hjson hjson
  obtain ⟨⟨e', he'⟩, hiff'⟩ := hprojection projection hjson hjson le_rfl zero_le_one
  refine ⟨⟨e, fun hback => ((hiff e he).mp hback).1 rfl⟩, ⟨e', fun hback => ?_⟩⟩
  have hsmall := ((hiff' e' he').mp hback).1
  exact absurd hsmall (not_lt.mpr (zpow_nonneg (by norm_num) _))

theorem doubtful_certain :
    doubtful.confidence = 0 ∧
      ((Store.empty.writeRelation doubtful).findRelated 0 ["Driver:D-1"] 10).toOption.map
        (List.map fun r => (r.source.entityId, r.target.entityId, r.confidence)) = some [("D-1", "V-1", 1)] ∧
      ((Store.empty.writeRelation doubtful).findPaths 0 "Vehicle:V-1" 1 10).toOption.map
        (List.map fun p => p.relations.map fun r => (r.source.entityId, r.target.entityId, r.confidence)) =
          some [[("D-1", "V-1", 1)]] := by
  refine ⟨rfl, ?_, ?_⟩ <;> decide +kernel

end CountyFlow.GraphMemory
