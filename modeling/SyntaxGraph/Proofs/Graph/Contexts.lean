import SyntaxGraph.Proofs.Graph.Sound

/-!
Graphs up to the contexts of their entities. A context tells where an entity was made up, so it
depends on what the graph held before. Without it a definition and a link are merges: of what they
would write to the empty graph.
-/

set_option autoImplicit false

namespace SyntaxGraph

namespace Entity

def withoutContext (entity : Entity) : Entity := { entity with context := none }

theorem without_context_prefer (first second : Option Entity) :
    (prefer first second).map withoutContext =
      prefer (first.map withoutContext) (second.map withoutContext) := by
  cases first with
  | none => rfl
  | some left =>
      cases second with
      | none => rfl
      | some right =>
          show Option.map _ (if left.isDangling && !right.isDangling then some right
            else some left) = if left.isDangling && !right.isDangling then _ else _
          split <;> rfl

theorem without_context_define (entity : Entity) (kind : EntityKind) (file : Option String)
    (span : Option Span) :
    some (entity.define kind file span).withoutContext =
      prefer (some entity.withoutContext) (some (.resolved entity.id kind file span)) := by
  cases dangles : entity.isDangling with
  | true =>
      have dangling : entity.status = .dangling := of_decide_eq_true dangles
      simp [define, prefer, withoutContext, isDangling, resolved, dangling]
  | false =>
      have settled : ¬entity.status = .dangling := of_decide_eq_false dangles
      simp [define, prefer, withoutContext, isDangling, settled]

/-- A mention gives way to whatever is there. -/
theorem prefer_dangling (first : Option Entity) (id : String) (kind : EntityKind)
    (context : Option String) :
    prefer first (some (.dangling id kind context)) =
      some (first.getD (.dangling id kind context)) := by
  cases first with
  | none => rfl
  | some present => simp [prefer, isDangling, dangling]

end Entity

namespace EntityGraph

/-- Everything but the contexts: ids, kinds, statuses and places in their order, and the edges. -/
def withoutContexts (graph : EntityGraph) : EntityGraph :=
  { graph with entities := graph.entities.map Entity.withoutContext }

variable {graph other : EntityGraph}

@[simp] theorem ids_without_contexts : graph.withoutContexts.ids = graph.ids := by
  simp only [ids, withoutContexts, List.map_map]
  rfl

@[simp] theorem entity_without_contexts (id : String) :
    graph.withoutContexts.entity? id = (graph.entity? id).map Entity.withoutContext := by
  simp only [entity?, withoutContexts, List.find?_map]
  rfl

@[simp] theorem edges_without_contexts : graph.withoutContexts.edges = graph.edges := rfl

theorem WellFormed.withoutContexts (well : graph.WellFormed) :
    graph.withoutContexts.WellFormed := by
  constructor
  · rw [ids_without_contexts]
    exact well.ids_distinct
  · rw [ids_without_contexts]
    exact well.ends_present

theorem without_contexts_merge (before : graph.WellFormed) (well : other.WellFormed) :
    (graph.merge other).withoutContexts = graph.withoutContexts.merge other.withoutContexts := by
  have bare := well.withoutContexts
  apply ext_of_lookup
  · rw [ids_without_contexts]
    exact (before.merge well).ids_distinct
  · simp only [ids_without_contexts, ids_merge well, ids_merge bare]
  · intro id
    rw [entity_without_contexts, entity_merge well, entity_merge bare,
      Entity.without_context_prefer, entity_without_contexts, entity_without_contexts]
  · rw [edges_merge bare, edges_without_contexts, edges_merge well]
    rfl

theorem with_id_eq_append_filter (ids : List String) (id : String) :
    withId ids id = ids ++ [id].filter (· ∉ ids) := by
  unfold withId
  by_cases present : id ∈ ids <;> simp [present]

-- Writing is merging

def ofDefinition (id : String) (kind : EntityKind) (file : String) (span : Span) : EntityGraph :=
  empty.claim id kind (some file) (some span)

def ofLink (edge : Edge) (sourceKind targetKind : EntityKind) : EntityGraph :=
  empty.connect edge sourceKind targetKind none

theorem of_definition_well_formed (id : String) (kind : EntityKind) (file : String) (span : Span) :
    (ofDefinition id kind file span).WellFormed :=
  (empty_sound.claim id kind file span).toWellFormed

theorem of_link_well_formed (edge : Edge) (sourceKind targetKind : EntityKind) :
    (ofLink edge sourceKind targetKind).WellFormed :=
  (empty_sound.connect edge sourceKind targetKind none).toWellFormed

theorem without_contexts_claim (well : graph.WellFormed) (id : String) (kind : EntityKind)
    (file : String) (span : Span) :
    (graph.claim id kind (some file) (some span)).withoutContexts =
      graph.withoutContexts.merge (ofDefinition id kind file span) := by
  have single := of_definition_well_formed id kind file span
  apply ext_of_lookup
  · rw [ids_without_contexts, ids_claim]
    exact with_id_nodup well.ids_distinct id
  · rw [ids_merge single, ids_without_contexts, ids_without_contexts, ids_claim, ofDefinition,
      ids_claim, with_id_eq_append_filter]
    rfl
  · intro other
    rw [entity_merge single, entity_without_contexts, entity_without_contexts, ofDefinition,
      entity_claim, entity_claim]
    by_cases same : other = id
    · subst same
      rw [if_pos rfl, if_pos rfl]
      cases found : graph.entity? other with
      | none => rfl
      | some present =>
          have defined := present.without_context_define kind (some file) (some span)
          rw [id_of_entity found] at defined
          exact defined
    · rw [if_neg same, if_neg same]
      exact (Entity.prefer_none _).symm
  · rw [edges_merge single, edges_without_contexts, edges_without_contexts, edges_claim,
      ofDefinition, edges_claim]
    exact (List.append_nil _).symm

theorem prefer_of_ensure_entity (id : String) (kind : EntityKind) (context : Option String)
    (other : String) :
    (graph.ensureEntity id kind context).entity? other =
      Entity.prefer (graph.entity? other)
        (if other = id then some (.dangling id kind context) else none) := by
  rw [entity_ensure_entity]
  by_cases same : other = id
  · rw [if_pos same, if_pos same, Entity.prefer_dangling, same]
  · rw [if_neg same, if_neg same, Entity.prefer_none]

theorem prefer_of_connect (edge : Edge) (sourceKind targetKind : EntityKind)
    (context : Option String) (other : String) :
    (graph.connect edge sourceKind targetKind context).entity? other =
      Entity.prefer
        (Entity.prefer (graph.entity? other)
          (if other = edge.source then some (.dangling edge.source sourceKind context) else none))
        (if other = edge.target then some (.dangling edge.target targetKind context)
          else none) := by
  rw [← prefer_of_ensure_entity, ← prefer_of_ensure_entity]
  rfl

theorem with_two_ids_eq_append_filter (ids : List String) (first second : String) :
    withId (withId ids first) second = ids ++ (withId [first] second).filter (· ∉ ids) := by
  rw [with_id_eq_append_filter (withId ids first), with_id_eq_append_filter ids,
    with_id_eq_append_filter [first], List.filter_append, List.filter_filter, List.append_assoc]
  congr 2
  apply List.filter_congr
  intro id _
  by_cases known : id ∈ ids <;> simp [known]

theorem without_contexts_connect (well : graph.WellFormed) (edge : Edge)
    (sourceKind targetKind : EntityKind) (context : Option String) :
    (graph.connect edge sourceKind targetKind context).withoutContexts =
      graph.withoutContexts.merge (ofLink edge sourceKind targetKind) := by
  have single := of_link_well_formed edge sourceKind targetKind
  have bare : ∀ other id kind, Option.map Entity.withoutContext
        (if other = id then some (.dangling id kind context) else none) =
      if other = id then some (.dangling id kind none) else none := by
    intro other id kind
    split <;> rfl
  apply ext_of_lookup
  · rw [ids_without_contexts, ids_connect]
    exact with_id_nodup (with_id_nodup well.ids_distinct edge.source) edge.target
  · rw [ids_merge single, ids_without_contexts, ids_without_contexts, ids_connect, ofLink,
      ids_connect]
    exact with_two_ids_eq_append_filter graph.ids edge.source edge.target
  · intro other
    have nothing : empty.entity? other = none := rfl
    -- made-up ends come behind whatever is there, so regrouping is all there is to do
    rw [entity_merge single, entity_without_contexts, entity_without_contexts, ofLink,
      prefer_of_connect, prefer_of_connect, nothing, Entity.none_prefer,
      Entity.without_context_prefer, Entity.without_context_prefer, bare, bare,
      Entity.prefer_assoc]
  · rw [edges_merge single, edges_without_contexts, edges_without_contexts, edges_connect,
      ofLink, edges_connect]
    rfl

end EntityGraph

end SyntaxGraph
