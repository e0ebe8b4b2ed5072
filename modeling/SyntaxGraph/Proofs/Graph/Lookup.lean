import Mathlib.Data.List.Nodup
import SyntaxGraph.Graph.Basic

/-!
Graphs seen by their ids, by what is found under each id, and by their edges. Every operation is
described by what it does to these three; a graph in which no id occurs twice is determined by them.
-/

set_option autoImplicit false

namespace SyntaxGraph

@[simp] theorem Entity.id_define (entity : Entity) (kind : EntityKind) (file : Option String)
    (span : Option Span) : (entity.define kind file span).id = entity.id := by
  unfold define
  split <;> rfl

theorem Entity.status_define (entity : Entity) (kind : EntityKind) (file : Option String)
    (span : Option Span) : (entity.define kind file span).status = .resolved := by
  unfold define
  split
  · rfl
  · rename_i settled
    cases status : entity.status with
    | resolved => rfl
    | dangling => exact absurd (decide_eq_true status) settled

namespace EntityGraph

def ids (graph : EntityGraph) : List String := graph.entities.map (·.id)

def withId (ids : List String) (id : String) : List String :=
  if id ∈ ids then ids else ids ++ [id]

variable {graph : EntityGraph}

theorem id_of_entity {id : String} {entity : Entity} (found : graph.entity? id = some entity) :
    entity.id = id := by
  simpa using List.find?_some found

theorem mem_of_entity {id : String} {entity : Entity} (found : graph.entity? id = some entity) :
    entity ∈ graph.entities := List.mem_of_find?_eq_some found

theorem mem_ids_of_mem {entity : Entity} (member : entity ∈ graph.entities) :
    entity.id ∈ graph.ids := List.mem_map_of_mem member

theorem entity_of_mem_ids {id : String} (member : id ∈ graph.ids) :
    ∃ entity, graph.entity? id = some entity := by
  obtain ⟨entity, listed, same⟩ := List.mem_map.1 member
  have found : (graph.entity? id).isSome = true :=
    List.find?_isSome.2 ⟨entity, listed, decide_eq_true same⟩
  exact Option.isSome_iff_exists.1 found

theorem entity_eq_none_iff {id : String} : graph.entity? id = none ↔ id ∉ graph.ids := by
  constructor
  · intro missing member
    obtain ⟨entity, found⟩ := entity_of_mem_ids member
    rw [missing] at found
    cases found
  · intro absent
    cases found : graph.entity? id with
    | none => rfl
    | some entity =>
        have member := mem_ids_of_mem (mem_of_entity found)
        rw [id_of_entity found] at member
        exact absurd member absent

theorem contains_iff {id : String} : graph.contains id = true ↔ id ∈ graph.ids := by
  constructor
  · intro contained
    obtain ⟨entity, found⟩ := Option.isSome_iff_exists.1 contained
    by_contra absent
    rw [entity_eq_none_iff.2 absent] at found
    cases found
  · intro member
    obtain ⟨entity, found⟩ := entity_of_mem_ids member
    exact Option.isSome_iff_exists.2 ⟨entity, found⟩

theorem entity_of_mem (distinct : graph.ids.Nodup) {entity : Entity}
    (member : entity ∈ graph.entities) : graph.entity? entity.id = some entity := by
  obtain ⟨found, looked⟩ := entity_of_mem_ids (mem_ids_of_mem member)
  rw [looked]
  exact congrArg some
    (List.inj_on_of_nodup_map distinct (mem_of_entity looked) member (id_of_entity looked))

theorem entities_of_lookup (distinct : graph.ids.Nodup) :
    graph.ids.filterMap graph.entity? = graph.entities := by
  have found : ∀ entity ∈ graph.entities, (graph.entity? ∘ (·.id)) entity = some entity :=
    fun entity member => entity_of_mem distinct member
  rw [ids, List.filterMap_map, List.filterMap_congr found, List.filterMap_some]

theorem ext_of_lookup {left right : EntityGraph} (distinct : left.ids.Nodup)
    (ids_eq : left.ids = right.ids) (lookup_eq : ∀ id, left.entity? id = right.entity? id)
    (edges_eq : left.edges = right.edges) : left = right := by
  have entities_eq : left.entities = right.entities := by
    rw [← entities_of_lookup distinct, ← entities_of_lookup (ids_eq ▸ distinct), ids_eq,
      funext lookup_eq]
  cases left
  cases right
  simp_all

-- What the operations do to ids and to look-ups

theorem ids_update {id : String} {change : Entity → Entity}
    (keeps : ∀ entity, entity.id = id → (change entity).id = id) :
    (graph.update id change).ids = graph.ids := by
  simp only [ids, update, List.map_map]
  apply List.map_congr_left
  intro entity _
  by_cases same : entity.id = id
  · simp [same, keeps entity same]
  · simp [same]

theorem entity_update {id : String} {change : Entity → Entity}
    (keeps : ∀ entity, entity.id = id → (change entity).id = id) (other : String) :
    (graph.update id change).entity? other =
      if other = id then (graph.entity? id).map change else graph.entity? other := by
  have sameIds : ∀ entity : Entity,
      (if entity.id = id then change entity else entity).id = entity.id := by
    intro entity
    by_cases same : entity.id = id
    · rw [if_pos same, keeps entity same, same]
    · rw [if_neg same]
  have looked : (graph.update id change).entity? other =
      (graph.entity? other).map fun entity =>
        if entity.id = id then change entity else entity := by
    simp only [entity?, update, List.find?_map, Function.comp_def, sameIds]
  rw [looked]
  by_cases same : other = id
  · subst same
    rw [if_pos rfl]
    apply Option.map_congr
    intro entity found
    rw [if_pos (id_of_entity found)]
  · rw [if_neg same]
    cases found : graph.entity? other with
    | none => rfl
    | some entity =>
        have notChanged : ¬entity.id = id := by
          rw [id_of_entity found]
          exact same
        rw [Option.map_some, if_neg notChanged]

theorem ids_add_entity (entity : Entity) :
    (graph.addEntity entity).ids = withId graph.ids entity.id := by
  unfold addEntity withId
  by_cases present : entity.id ∈ graph.ids
  · rw [if_pos present, if_pos (contains_iff.2 present), ids_update fun _ _ => rfl]
  · rw [if_neg present, if_neg fun contained => present (contains_iff.1 contained)]
    simp [ids]

theorem entity_add_entity (entity : Entity) (id : String) :
    (graph.addEntity entity).entity? id =
      if id = entity.id then some entity else graph.entity? id := by
  unfold addEntity
  by_cases present : entity.id ∈ graph.ids
  · obtain ⟨found, looked⟩ := entity_of_mem_ids present
    rw [if_pos (contains_iff.2 present), entity_update fun _ _ => rfl, looked]
    rfl
  · rw [if_neg fun contained => present (contains_iff.1 contained)]
    have looked : EntityGraph.entity? ⟨graph.entities ++ [entity], graph.edges⟩ id =
        (graph.entity? id).or (if entity.id = id then some entity else none) := by
      simp only [entity?, List.find?_append, List.find?_singleton, decide_eq_true_eq]
    rw [looked]
    by_cases same : id = entity.id
    · subst same
      rw [entity_eq_none_iff.2 present, if_pos rfl, Option.none_or]
    · rw [if_neg same, if_neg (Ne.symm same), Option.or_none]

theorem edges_add_entity (entity : Entity) : (graph.addEntity entity).edges = graph.edges := by
  unfold addEntity
  split <;> rfl

variable (id : String) (kind : EntityKind)

theorem ids_claim (file : Option String) (span : Option Span) :
    (graph.claim id kind file span).ids = withId graph.ids id := by
  unfold claim
  by_cases present : id ∈ graph.ids
  · rw [if_pos (contains_iff.2 present), ids_update (by simp), withId, if_pos present]
  · rw [if_neg fun contained => present (contains_iff.1 contained), ids_add_entity]
    rfl

theorem entity_claim (file : Option String) (span : Option Span) (other : String) :
    (graph.claim id kind file span).entity? other =
      if other = id then
        some (((graph.entity? id).map (·.define kind file span)).getD
          (.resolved id kind file span))
      else graph.entity? other := by
  unfold claim
  by_cases present : id ∈ graph.ids
  · obtain ⟨found, looked⟩ := entity_of_mem_ids present
    rw [if_pos (contains_iff.2 present), entity_update (by simp), looked]
    rfl
  · rw [if_neg fun contained => present (contains_iff.1 contained), entity_add_entity,
      entity_eq_none_iff.2 present]
    rfl

theorem edges_claim (file : Option String) (span : Option Span) :
    (graph.claim id kind file span).edges = graph.edges := by
  unfold claim
  split
  · rfl
  · exact edges_add_entity _

theorem ids_ensure_entity (context : Option String) :
    (graph.ensureEntity id kind context).ids = withId graph.ids id := by
  unfold ensureEntity
  by_cases present : id ∈ graph.ids
  · rw [if_pos (contains_iff.2 present), withId, if_pos present]
  · rw [if_neg fun contained => present (contains_iff.1 contained), ids_add_entity]
    rfl

theorem entity_ensure_entity (context : Option String) (other : String) :
    (graph.ensureEntity id kind context).entity? other =
      if other = id then some ((graph.entity? id).getD (.dangling id kind context))
      else graph.entity? other := by
  unfold ensureEntity
  by_cases present : id ∈ graph.ids
  · obtain ⟨found, looked⟩ := entity_of_mem_ids present
    rw [if_pos (contains_iff.2 present), looked]
    by_cases same : other = id
    · rw [if_pos same, same, looked]
      rfl
    · rw [if_neg same]
  · rw [if_neg fun contained => present (contains_iff.1 contained), entity_add_entity,
      entity_eq_none_iff.2 present]
    rfl

theorem edges_ensure_entity (context : Option String) :
    (graph.ensureEntity id kind context).edges = graph.edges := by
  unfold ensureEntity
  split
  · rfl
  · exact edges_add_entity _

omit id kind

theorem mem_with_id {ids : List String} {id other : String} :
    other ∈ withId ids id ↔ other ∈ ids ∨ other = id := by
  unfold withId
  split
  · rename_i present
    constructor
    · exact Or.inl
    · rintro (member | same)
      · exact member
      · rw [same]
        exact present
  · simp

theorem with_id_nodup {ids : List String} (distinct : ids.Nodup) (id : String) :
    (withId ids id).Nodup := by
  unfold withId
  split
  · exact distinct
  · rename_i absent
    refine List.nodup_append.2 ⟨distinct, List.nodup_singleton id, ?_⟩
    intro other member last lastMember same
    rw [same, List.mem_singleton.1 lastMember] at member
    exact absent member

end EntityGraph

end SyntaxGraph
