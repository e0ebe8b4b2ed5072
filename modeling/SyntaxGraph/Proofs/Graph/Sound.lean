import SyntaxGraph.Graph.Builder
import SyntaxGraph.Proofs.Graph.Merge

/-!
What holds of every graph under construction. Entities that are resolved have a place, those that
dangle have none and are there because of an edge. Definitions, links and merges keep this, and with
it that every syntax node remembered by a builder has its entity.
-/

set_option autoImplicit false

namespace SyntaxGraph

namespace EntityGraph

/-- A dangling entity is the end of an edge and nothing more; a resolved one is placed. -/
structure Sound (graph : EntityGraph) : Prop extends graph.WellFormed where
  resolved_placed : ∀ entity ∈ graph.entities, entity.status = .resolved →
    (∃ file, entity.file = some file) ∧ ∃ span, entity.span = some span
  dangling_unplaced : ∀ entity ∈ graph.entities, entity.status = .dangling →
    entity.file = none ∧ entity.span = none
  dangling_joined : ∀ entity ∈ graph.entities, entity.status = .dangling →
    ∃ edge ∈ graph.edges, edge.source = entity.id ∨ edge.target = entity.id

variable {graph other : EntityGraph}

theorem empty_sound : empty.Sound :=
  ⟨empty_well_formed, by simp [empty], by simp [empty], by simp [empty]⟩

theorem mem_claim (distinct : graph.ids.Nodup) {id : String} {kind : EntityKind}
    {file : Option String} {span : Option Span} {entity : Entity}
    (member : entity ∈ (graph.claim id kind file span).entities) :
    entity ∈ graph.entities ∨
      entity.status = .resolved ∧ entity.file = file ∧ entity.span = span := by
  have distinctAfter : (graph.claim id kind file span).ids.Nodup := by
    rw [ids_claim]
    exact with_id_nodup distinct id
  have looked := entity_of_mem distinctAfter member
  rw [entity_claim] at looked
  split at looked
  · cases found : graph.entity? id with
    | none =>
        rw [found] at looked
        cases looked
        exact Or.inr ⟨rfl, rfl, rfl⟩
    | some present =>
        rw [found] at looked
        simp only [Option.map_some, Option.getD_some, Option.some.injEq] at looked
        subst looked
        by_cases dangles : present.isDangling = true
        · rw [Entity.define, if_pos dangles]
          exact Or.inr ⟨rfl, rfl, rfl⟩
        · rw [Entity.define, if_neg dangles]
          exact Or.inl (mem_of_entity found)
  · exact Or.inl (mem_of_entity looked)

theorem Sound.claim (sound : graph.Sound) (id : String) (kind : EntityKind) (file : String)
    (span : Span) : (graph.claim id kind (some file) (some span)).Sound := by
  have distinct := sound.ids_distinct
  refine ⟨⟨?_, ?_⟩, ?_, ?_, ?_⟩
  · rw [ids_claim]
    exact with_id_nodup distinct id
  · intro edge member
    rw [edges_claim] at member
    obtain ⟨source, target⟩ := sound.ends_present edge member
    rw [ids_claim, mem_with_id, mem_with_id]
    exact ⟨Or.inl source, Or.inl target⟩
  · intro entity member resolved
    rcases mem_claim distinct member with old | ⟨_, placed, spanned⟩
    · exact sound.resolved_placed entity old resolved
    · exact ⟨⟨file, placed⟩, span, spanned⟩
  · intro entity member dangling
    rcases mem_claim distinct member with old | ⟨resolved, _⟩
    · exact sound.dangling_unplaced entity old dangling
    · rw [resolved] at dangling
      cases dangling
  · intro entity member dangling
    rw [edges_claim]
    rcases mem_claim distinct member with old | ⟨resolved, _⟩
    · exact sound.dangling_joined entity old dangling
    · rw [resolved] at dangling
      cases dangling

section Connect

variable (edge : Edge) (sourceKind targetKind : EntityKind) (context : Option String)

theorem ids_connect : (graph.connect edge sourceKind targetKind context).ids =
    withId (withId graph.ids edge.source) edge.target := by
  rw [← ids_ensure_entity edge.source sourceKind context,
    ← ids_ensure_entity edge.target targetKind context]
  rfl

theorem edges_connect : (graph.connect edge sourceKind targetKind context).edges =
    graph.edges ++ [edge] := by
  simp [connect, appendEdge, edges_ensure_entity]

theorem mem_ensure_entity {id : String} {kind : EntityKind} {entity : Entity}
    (member : entity ∈ (graph.ensureEntity id kind context).entities) :
    entity ∈ graph.entities ∨ entity = .dangling id kind context := by
  unfold ensureEntity at member
  by_cases present : graph.contains id = true
  · rw [if_pos present] at member
    exact Or.inl member
  · rw [if_neg present, addEntity] at member
    rw [if_neg (show ¬graph.contains (Entity.dangling id kind context).id = true from present)]
      at member
    rcases List.mem_append.1 member with old | new
    · exact Or.inl old
    · exact Or.inr (List.mem_singleton.1 new)

/-- Only ends of the edge are made up. -/
theorem mem_connect {entity : Entity}
    (member : entity ∈ (graph.connect edge sourceKind targetKind context).entities) :
    entity ∈ graph.entities ∨
      ∃ id kind, entity = .dangling id kind context ∧ (edge.source = id ∨ edge.target = id) := by
  rcases mem_ensure_entity context member with earlier | target
  · rcases mem_ensure_entity context earlier with old | source
    · exact Or.inl old
    · exact Or.inr ⟨_, _, source, Or.inl rfl⟩
  · exact Or.inr ⟨_, _, target, Or.inr rfl⟩

theorem Sound.connect (sound : graph.Sound) :
    (graph.connect edge sourceKind targetKind context).Sound := by
  refine ⟨⟨?_, ?_⟩, ?_, ?_, ?_⟩
  · rw [ids_connect]
    exact with_id_nodup (with_id_nodup sound.ids_distinct edge.source) edge.target
  · intro joined member
    rw [edges_connect] at member
    simp only [ids_connect, mem_with_id]
    rcases List.mem_append.1 member with old | new
    · obtain ⟨source, target⟩ := sound.ends_present joined old
      exact ⟨Or.inl (Or.inl source), Or.inl (Or.inl target)⟩
    · rw [List.mem_singleton.1 new]
      exact ⟨Or.inl (Or.inr rfl), Or.inr rfl⟩
  · intro entity member resolved
    rcases mem_connect edge sourceKind targetKind context member with old | ⟨id, kind, same, _⟩
    · exact sound.resolved_placed entity old resolved
    · rw [same] at resolved
      cases resolved
  · intro entity member dangling
    rcases mem_connect edge sourceKind targetKind context member with old | ⟨id, kind, same, _⟩
    · exact sound.dangling_unplaced entity old dangling
    · rw [same]
      exact ⟨rfl, rfl⟩
  · intro entity member dangling
    rw [edges_connect]
    rcases mem_connect edge sourceKind targetKind context member with old | ⟨id, kind, same, joins⟩
    · obtain ⟨joined, listed, joins⟩ := sound.dangling_joined entity old dangling
      exact ⟨joined, List.mem_append_left _ listed, joins⟩
    · rw [same]
      exact ⟨edge, List.mem_append_right _ (List.mem_singleton_self edge), joins⟩

end Connect

theorem mem_merge (well : other.WellFormed) (before : graph.WellFormed) {entity : Entity}
    (member : entity ∈ (graph.merge other).entities) :
    entity ∈ graph.entities ∨ entity ∈ other.entities := by
  have looked := entity_of_mem (before.merge well).ids_distinct member
  rw [entity_merge well] at looked
  rcases Entity.prefer_eq_some looked with own | others
  · exact Or.inl (mem_of_entity own)
  · exact Or.inr (mem_of_entity others)

/-- A dangling entity that is taken over brings the edge that it is there for. -/
theorem Sound.merge (sound : graph.Sound) (others : other.Sound) : (graph.merge other).Sound := by
  have well := others.toWellFormed
  have before := sound.toWellFormed
  refine ⟨before.merge well, ?_, ?_, ?_⟩
  · intro entity member resolved
    rcases mem_merge well before member with own | taken
    · exact sound.resolved_placed entity own resolved
    · exact others.resolved_placed entity taken resolved
  · intro entity member dangling
    rcases mem_merge well before member with own | taken
    · exact sound.dangling_unplaced entity own dangling
    · exact others.dangling_unplaced entity taken dangling
  · intro entity member dangling
    rw [edges_merge well]
    rcases mem_merge well before member with own | taken
    · obtain ⟨joined, listed, joins⟩ := sound.dangling_joined entity own dangling
      exact ⟨joined, List.mem_append_left _ listed, joins⟩
    · obtain ⟨joined, listed, joins⟩ := others.dangling_joined entity taken dangling
      exact ⟨joined, List.mem_append_right _ listed, joins⟩

/-- An entity that is resolved stays so, whatever is defined. -/
theorem resolved_claim {id : String} {entity : Entity} (found : graph.entity? id = some entity)
    (resolved : entity.status = .resolved) (defined : String) (kind : EntityKind)
    (file : Option String) (span : Option Span) :
    (graph.claim defined kind file span).entity? id = some entity := by
  rw [entity_claim]
  split
  · rename_i same
    subst same
    have settled : ¬entity.isDangling = true := by simp [Entity.isDangling, resolved]
    rw [found, Option.map_some, Option.getD_some, Entity.define, if_neg settled]
  · exact found

theorem entity_of_ensure_entity {id : String} {entity : Entity}
    (found : graph.entity? id = some entity) (ensured : String) (kind : EntityKind)
    (context : Option String) :
    (graph.ensureEntity ensured kind context).entity? id = some entity := by
  rw [entity_ensure_entity]
  split
  · rename_i same
    rw [← same, found]
    rfl
  · exact found

end EntityGraph

namespace GraphBuilder

/-- Edges, and syntax nodes that stand for something, lead to entities of the graph. -/
structure Closed (builder : GraphBuilder) : Prop where
  ends_present : ∀ edge ∈ builder.graph.edges,
    edge.source ∈ builder.graph.ids ∧ edge.target ∈ builder.graph.ids
  remembered_present : ∀ node id, builder.idOf? node = some id → id ∈ builder.graph.ids

/-- The graph is sound, and what a syntax node came to stand for is resolved. -/
structure Sound (builder : GraphBuilder) : Prop where
  graph_sound : builder.graph.Sound
  associated_resolved : ∀ node id, (node, id) ∈ builder.associations →
    ∃ entity, builder.graph.entity? id = some entity ∧ entity.status = .resolved

variable {builder : GraphBuilder}

theorem empty_sound : empty.Sound := ⟨EntityGraph.empty_sound, by simp [empty, onGraph]⟩

theorem Sound.beginFile (sound : builder.Sound) (file : String) : (builder.beginFile file).Sound :=
  ⟨sound.graph_sound, by simp [GraphBuilder.beginFile]⟩

theorem associated_of_id {node : NodeId} {id : String} (remembered : builder.idOf? node = some id) :
    (node, id) ∈ builder.associations := by
  obtain ⟨⟨other, same⟩, found, rfl⟩ := Option.map_eq_some_iff.1 remembered
  have matched : other = node := by simpa using List.find?_some found
  rw [← matched]
  exact List.mem_of_find?_eq_some found

theorem Sound.entity_of_node (sound : builder.Sound) {node : NodeId} {id : String}
    (remembered : builder.idOf? node = some id) :
    ∃ entity, builder.entityOf? node = some entity ∧ entity.id = id ∧
      entity.status = .resolved := by
  obtain ⟨entity, found, resolved⟩ :=
    sound.associated_resolved node id (associated_of_id remembered)
  refine ⟨entity, ?_, EntityGraph.id_of_entity found, resolved⟩
  rw [entityOf?, remembered]
  exact found

theorem Sound.closed (sound : builder.Sound) : builder.Closed := by
  refine ⟨sound.graph_sound.ends_present, ?_⟩
  intro node id remembered
  obtain ⟨entity, found, _⟩ := sound.associated_resolved node id (associated_of_id remembered)
  rw [← EntityGraph.id_of_entity found]
  exact EntityGraph.mem_ids_of_mem (EntityGraph.mem_of_entity found)

theorem Closed.id_of_node (closed : builder.Closed) (node : NodeId) :
    (builder.entityOf? node).map (·.id) = builder.idOf? node := by
  cases remembered : builder.idOf? node with
  | none => rw [entityOf?, remembered, Option.bind_none, Option.map_none]
  | some id =>
      obtain ⟨entity, found⟩ :=
        EntityGraph.entity_of_mem_ids (closed.remembered_present node id remembered)
      rw [entityOf?, remembered, Option.bind_some, found, Option.map_some,
        EntityGraph.id_of_entity found]

end GraphBuilder

end SyntaxGraph
