import SyntaxGraph.Proofs.Converter.Effect
import SyntaxGraph.Proofs.Expression.Lookups
import SyntaxGraph.Proofs.Graph.Sound

/-!
What expressions see of a definition. It gives one syntax node an entity, and that entity is new,
settled already, or was dangling. A reference looks past the definition if the nodes around the
match that it passes through are others, if a walk along edges meets no entity that changes, and if
no entity is asked for behind the node itself.
-/

set_option autoImplicit false

namespace SyntaxGraph

namespace EntityGraph

def Settled (graph : EntityGraph) (id : String) : Prop :=
  ∀ entity, graph.entity? id = some entity → entity.status = .resolved

variable {graph : EntityGraph} {id : String} (settled : graph.Settled id) (kind : EntityKind)
  (file : Option String) (span : Option Span)
include settled

theorem Settled.entity_claim {other : String} (present : other ∈ graph.ids) :
    (graph.claim id kind file span).entity? other = graph.entity? other := by
  obtain ⟨entity, found⟩ := entity_of_mem_ids present
  by_cases same : other = id
  · rw [same] at found ⊢
    rw [found]
    exact resolved_claim found (settled entity found) id kind file span
  · rw [EntityGraph.entity_claim, if_neg same]

variable (joined : ∀ edge ∈ graph.edges, edge.source ∈ graph.ids ∧ edge.target ∈ graph.ids)
include joined

theorem Settled.parent_claim (child : String) :
    (graph.claim id kind file span).parentOf? child = graph.parentOf? child := by
  rw [parentOf?, parentOf?, incoming, incoming, edges_claim]
  apply Option.bind_congr
  intro edge found
  have listed := List.mem_of_mem_filter (List.mem_of_find?_eq_some found)
  exact settled.entity_claim kind file span (joined edge listed).1

theorem Settled.supertypes_claim (child : String) :
    (graph.claim id kind file span).supertypesOf child = graph.supertypesOf child := by
  rw [supertypesOf, supertypesOf, outgoing, outgoing, edges_claim]
  apply List.filterMap_congr
  intro edge listed
  have member := List.mem_of_mem_filter (List.mem_of_mem_filter listed)
  exact settled.entity_claim kind file span (joined edge member).2

end EntityGraph

namespace MatchContext

theorem class_upwards_agrees {left right : EntityGraph}
    (same : ∀ child, left.parentOf? child = right.parentOf? child) (bound : Nat)
    (visited : List String) (current : Option Entity) :
    classUpwards left bound visited current = classUpwards right bound visited current := by
  induction bound generalizing visited current with
  | zero => cases current <;> rfl
  | succ bound induction =>
      cases current with
      | none => rfl
      | some entity => rw [classUpwards, classUpwards, same, induction]

/-- A walk that meets no id twice ends within the number of ids that it can meet. -/
theorem class_upwards_stable {graph : EntityGraph} (within : List String)
    (parents : ∀ child entity, graph.parentOf? child = some entity → entity.id ∈ within)
    (bound : Nat) {visited : List String} {current : Option Entity}
    (reached : ∀ entity, current = some entity → entity.id ∈ within) (distinct : visited.Nodup)
    (inside : visited ⊆ within) (enough : within.length < visited.length + bound) :
    classUpwards graph (bound + 1) visited current = classUpwards graph bound visited current := by
  -- Each step spends one of the bound and adds one to the visited ids, so `enough` is kept.
  induction bound generalizing visited current with
  | zero => exact absurd (List.Nodup.length_le_of_subset distinct inside) (by omega)
  | succ bound induction =>
      cases current with
      | none => rfl
      | some entity =>
          rw [classUpwards, classUpwards]
          by_cases again : entity.id ∈ visited
          · simp only [List.contains_iff_mem.2 again, if_true]
          · have shorter := @induction (entity.id :: visited) (graph.parentOf? entity.id)
              (parents entity.id) (List.nodup_cons.2 ⟨again, distinct⟩)
              (List.cons_subset.2 ⟨reached entity rfl, inside⟩)
              (by rw [List.length_cons]; omega)
            rw [shorter]

end MatchContext

theorem EntityGraph.parent_present {graph : EntityGraph} {child : String} {entity : Entity}
    (found : graph.parentOf? child = some entity) : entity.id ∈ graph.ids := by
  obtain ⟨edge, _, looked⟩ := Option.bind_eq_some_iff.1 found
  exact mem_ids_of_mem (mem_of_entity looked)

theorem MatchContext.class_upwards_enough (graph : EntityGraph) (start : Option Entity) :
    classUpwards graph (graph.entities.length + 3) [] start =
      classUpwards graph (graph.entities.length + 2) [] start := by
  -- The walk may start outside the graph; every later entity is one of its ids.
  apply class_upwards_stable ((start.map (·.id)).toList ++ graph.ids)
  · intro child entity found
    exact List.mem_append_right _ (EntityGraph.parent_present found)
  · rintro entity rfl
    exact List.mem_append_left _ (List.mem_singleton_self _)
  · exact List.nodup_nil
  · exact List.nil_subset _
  · have few : (start.map (·.id)).toList.length ≤ 1 := by cases start <;> simp
    rw [List.length_append, EntityGraph.ids, List.length_map]
    simp only [List.length_nil]
    omega

namespace GraphBuilder

variable {builder : GraphBuilder} (definition : Definition)

theorem id_of_define (node : NodeId) :
    (builder.define definition).idOf? node =
      if node = definition.node then some definition.id else builder.idOf? node := by
  have remembered : (builder.define definition).associations =
    (definition.node, definition.id) :: builder.associations := rfl
  rw [idOf?, idOf?, remembered]
  by_cases same : node = definition.node
  · simp [same]
  · simp [same, Ne.symm same]

variable (closed : builder.Closed)
include closed

theorem Closed.define : (builder.define definition).Closed := by
  have graph_eq : (builder.define definition).graph = builder.graph.claim definition.id
    definition.kind (some builder.file) (some definition.span) := rfl
  constructor
  · intro edge listed
    rw [graph_eq, EntityGraph.edges_claim] at listed
    obtain ⟨source, target⟩ := closed.ends_present edge listed
    rw [graph_eq, EntityGraph.ids_claim, EntityGraph.mem_with_id, EntityGraph.mem_with_id]
    exact ⟨Or.inl source, Or.inl target⟩
  · intro node id remembered
    rw [graph_eq, EntityGraph.ids_claim, EntityGraph.mem_with_id]
    rw [id_of_define] at remembered
    split at remembered
    · exact Or.inr (Option.some.inj remembered).symm
    · exact Or.inl (closed.remembered_present node id remembered)

theorem Closed.agree_at_define {node : NodeId} (apart : node ≠ definition.node) :
    builder.AgreeAt (builder.define definition) node := by
  unfold AgreeAt
  rw [closed.id_of_node, (closed.define definition).id_of_node, id_of_define, if_neg apart]

variable (settled : builder.graph.Settled definition.id)
include settled

theorem Closed.entity_of_define {node : NodeId} (apart : node ≠ definition.node) :
    (builder.define definition).entityOf? node = builder.entityOf? node := by
  rw [entityOf?, entityOf?, id_of_define, if_neg apart]
  apply Option.bind_congr
  intro id remembered
  exact settled.entity_claim _ _ _ (closed.remembered_present node id remembered)

theorem Closed.class_upwards_define (start : Option Entity) :
    let after := (builder.define definition).graph
    MatchContext.classUpwards after (after.entities.length + 2) [] start =
      MatchContext.classUpwards builder.graph (builder.graph.entities.length + 2) [] start := by
  intro after
  have sameParents : ∀ child, after.parentOf? child = builder.graph.parentOf? child :=
    settled.parent_claim _ _ _ closed.ends_present
  have ids_eq : after.ids = EntityGraph.withId builder.graph.ids definition.id :=
    EntityGraph.ids_claim _ _ _ _
  rw [MatchContext.class_upwards_agrees sameParents]
  -- What is left to compare are the bounds, which count the entities.
  by_cases present : definition.id ∈ builder.graph.ids
  · rw [EntityGraph.withId, if_pos present] at ids_eq
    have sameLength : after.entities.length = builder.graph.entities.length := by
      simpa [EntityGraph.ids] using congrArg List.length ids_eq
    rw [sameLength]
  · rw [EntityGraph.withId, if_neg present] at ids_eq
    have longer : after.entities.length = builder.graph.entities.length + 1 := by
      simpa [EntityGraph.ids] using congrArg List.length ids_eq
    rw [longer]
    exact MatchContext.class_upwards_enough builder.graph start

end GraphBuilder

section Site

variable (site : MatchSite) {builder : GraphBuilder} (definition : Definition)
  (closed : builder.Closed)
include closed

/-- Where the definition is for no node around the match and changes no entity, the walk for the
enclosing class starts and ends as before. -/
theorem enclosing_class_define (settled : builder.graph.Settled definition.id)
    (beside : definition.node ≠ site.start ∧ definition.node ∉ site.tree.ancestors site.start) :
    (site.inGraph (builder.define definition)).enclosingClass =
      (site.inGraph builder).enclosingClass := by
  have walks := closed.class_upwards_define definition settled
  have aside : ∀ node ∈ site.tree.ancestors site.start,
      (builder.define definition).entityOf? node = builder.entityOf? node :=
    fun node member => closed.entity_of_define definition settled
      (ne_of_mem_of_not_mem member beside.2)
  rw [enclosing_class_in_graph, enclosing_class_in_graph,
    closed.entity_of_define definition settled (Ne.symm beside.1)]
  cases builder.entityOf? site.start with
  | some entity => exact congrArg Except.ok (walks (some entity))
  | none =>
      simp only [walks]
      have above := nearest_ancestor_agrees site id
        (fun node member => congrArg _ (aside node member))
        fun found => .ok (MatchContext.classUpwards builder.graph
          (builder.graph.entities.length + 2) [] found)
      simpa only [Option.map_id, id] using above

theorem special_define (name : String)
    (parent : name = "parent" → definition.node ∉ site.tree.ancestors site.start)
    (walks : name = "enclosing_class" ∨ name = "superclass" →
      definition.node ≠ site.start ∧ definition.node ∉ site.tree.ancestors site.start ∧
        builder.graph.Settled definition.id) :
    (site.inGraph (builder.define definition)).special name =
      (site.inGraph builder).special name := by
  by_cases follows : name = "enclosing_class" ∨ name = "superclass"
  · obtain ⟨notStart, notAbove, settled⟩ := walks follows
    have sameClass := enclosing_class_define site definition closed settled ⟨notStart, notAbove⟩
    have sameSupertypes : ∀ child, (builder.define definition).graph.supertypesOf child =
        builder.graph.supertypesOf child :=
      settled.supertypes_claim _ _ _ closed.ends_present
    rcases follows with rfl | rfl
    · rw [MatchContext.special, MatchContext.special, sameClass]
    · rw [MatchContext.special, MatchContext.special, sameClass]
      cases (site.inGraph builder).enclosingClass with
      | error cause => rfl
      | ok found =>
          cases found with
          | none => rfl
          | some entity =>
              show MatchContext.requireEntity _ (((builder.define definition).graph.supertypesOf
                entity.id).find? _) = MatchContext.requireEntity _ _
              rw [sameSupertypes]
              rfl
  · obtain ⟨notClass, notSuper⟩ := not_or.1 follows
    apply (special_agrees site name ⟨notClass, notSuper⟩ _).symm
    intro isParent node member
    exact closed.agree_at_define definition (ne_of_mem_of_not_mem member (parent isParent))

end Site

/-- The syntax node that a name stands for by itself, captured or not. -/
def MatchSite.nodeNamed? (site : MatchSite) (name : String) : Option NodeId :=
  (site.captures.find? name).or (if name = "self" then some site.start else none)

theorem node_named_of_lookup {site : MatchSite} {builder : GraphBuilder} {name : String}
    {node : NodeId} (looked : (site.inGraph builder).lookup name = .ok (.node node)) :
    site.nodeNamed? name = some node := by
  have notEntity : ∀ cause found,
      MatchContext.requireEntity cause found ≠ .ok (Value.node node) := by
    intro cause found
    cases found <;> nofun
  unfold MatchSite.nodeNamed?
  rw [lookup_in_graph] at looked
  cases bound : site.captures.find? name with
  | some captured =>
      rw [bound] at looked
      cases looked
      rfl
  | none =>
      simp only [bound] at looked
      unfold MatchContext.special at looked
      split at looked
      · obtain ⟨found, _, required⟩ := exists_of_bind_ok looked
        exact absurd required (notEntity _ found)
      · cases looked
        rfl
      · obtain ⟨found, _, required⟩ := exists_of_bind_ok looked
        exact absurd required (notEntity _ found)
      · obtain ⟨found, _, required⟩ := exists_of_bind_ok looked
        exact absurd required (notEntity _ _)
      · cases looked

/-- What a reference looks up does not depend on whether the node stands for the id. -/
structure Reference.LooksPast (site : MatchSite) (builder : GraphBuilder) (node : NodeId)
    (id : String) (reference : Reference) : Prop where
  /-- The enclosing entity is that of another node. -/
  parent_elsewhere : site.captures.find? reference.name = none → reference.name = "parent" →
    node ∉ site.tree.ancestors site.start
  /-- The walk for the class starts from another node and meets no entity that changes. -/
  class_elsewhere : site.captures.find? reference.name = none →
    reference.name = "enclosing_class" ∨ reference.name = "superclass" →
      node ≠ site.start ∧ node ∉ site.tree.ancestors site.start ∧ builder.graph.Settled id
  /-- An entity is asked for behind another node. -/
  entity_elsewhere : AsksForEntity reference.calls → site.nodeNamed? reference.name ≠ some node

def Expression.LooksPast (site : MatchSite) (builder : GraphBuilder) (node : NodeId) (id : String)
    (expression : Expression) : Prop :=
  ∀ reference ∈ expression.allReferences, reference.LooksPast site builder node id

theorem Reference.LooksPast.sees_alike {site : MatchSite} {builder : GraphBuilder}
    (closed : builder.Closed) (definition : Definition) {reference : Reference}
    (past : reference.LooksPast site builder definition.node definition.id) :
    reference.SeesAlike site builder (builder.define definition) := by
  constructor
  · apply lookup_agrees
    intro unbound
    exact (special_define site definition closed reference.name (past.parent_elsewhere unbound)
      (past.class_elsewhere unbound)).symm
  · intro asks node looked
    apply closed.agree_at_define definition
    rintro rfl
    exact past.entity_elsewhere asks (node_named_of_lookup looked)

end SyntaxGraph
