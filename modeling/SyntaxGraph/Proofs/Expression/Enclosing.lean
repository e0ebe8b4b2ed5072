import SyntaxGraph.Proofs.Expression.Lookups
import SyntaxGraph.Proofs.Graph.Lookup
import SyntaxGraph.Proofs.Tree.Termination

/-!
What encloses a match. Two lines lead up from it: that of recorded parents in the tree, which is read
up to the outermost enclosing match, and from the entity so found that of parents in the graph, which
may run into a circle. Both walks find the first entity of the kind they look for, and report that
there is none exactly if the line has none.
-/

set_option autoImplicit false

namespace SyntaxGraph

-- The line in the tree

namespace Tree

variable {tree : Tree}

theorem Numbered.ancestors_under (numbered : tree.Numbered) (grounded : ∀ node, tree.Grounded node)
    {node parent : NodeId} (recorded : tree.Records node parent) :
    tree.ancestors node = parent :: tree.ancestors parent := by
  rw [← numbered.ancestors_end grounded node (Nat.le_succ tree.size), ancestorsWithin, recorded]
  rfl

theorem ClimbsTo.antisymm (grounded : ∀ node, tree.Grounded node) {lower upper : NodeId}
    (up : tree.ClimbsTo lower upper) (back : tree.ClimbsTo upper lower) : lower = upper := by
  rcases Relation.reflTransGen_iff_eq_or_transGen.1 up with same | above
  · exact same.symm
  · exact absurd (above.trans_left back) (grounded lower).not_above_itself

/-- Whatever is above a node is its parent or above that. -/
theorem climbs_of_records {node parent upper : NodeId} (recorded : tree.Records node parent) :
    Relation.TransGen tree.Records node upper ↔ tree.ClimbsTo parent upper := by
  rw [Relation.TransGen.head'_iff]
  constructor
  · rintro ⟨other, first, climbs⟩
    rw [Records, recorded] at first
    cases first
    exact climbs
  · exact fun climbs => ⟨parent, recorded, climbs⟩

/-- What a walk up to the outermost node passes: the proper ancestors that do not lie above it. -/
def Between (tree : Tree) (start outermost node : NodeId) : Prop :=
  Relation.TransGen tree.Records start node ∧ tree.ClimbsTo node outermost

/-- The deepest node between two that has an entity. -/
structure Nearest (tree : Tree) (builder : GraphBuilder) (start outermost node : NodeId)
    (entity : Entity) : Prop where
  between : tree.Between start outermost node
  stands : builder.entityOf? node = some entity
  deepest : ∀ other, tree.Between start outermost other →
    (builder.entityOf? other).isSome = true → tree.ClimbsTo node other

theorem Nearest.unique (grounded : ∀ node, tree.Grounded node) {builder : GraphBuilder}
    {start outermost node other : NodeId} {entity second : Entity}
    (nearest : tree.Nearest builder start outermost node entity)
    (also : tree.Nearest builder start outermost other second) : entity = second := by
  have same : node = other := ClimbsTo.antisymm grounded
    (nearest.deepest other also.between (Option.isSome_iff_exists.2 ⟨second, also.stands⟩))
    (also.deepest node nearest.between (Option.isSome_iff_exists.2 ⟨entity, nearest.stands⟩))
  have stands := nearest.stands
  rw [same, also.stands] at stands
  exact (Option.some.inj stands).symm

/-- The walk up a line yields the nearest entity, and none only if there is none. -/
theorem Numbered.nearest_among (numbered : tree.Numbered) (grounded : ∀ node, tree.Grounded node)
    (builder : GraphBuilder) {start outermost : NodeId}
    (above : Relation.TransGen tree.Records start outermost) :
    Finds (∀ node, tree.Between start outermost node → builder.entityOf? node = none)
      (fun entity => ∃ node, tree.Nearest builder start outermost node entity)
      (MatchContext.nearestAmong builder outermost (tree.ancestors start)) := by
  induction above using Relation.TransGen.head_induction_on with
  | @single start recorded =>
      -- The parent is the outermost node, and the only one between.
      have only : ∀ node, tree.Between start outermost node → outermost = node := by
        rintro node ⟨passed, below⟩
        exact ClimbsTo.antisymm grounded ((climbs_of_records recorded).1 passed) below
      rw [numbered.ancestors_under grounded recorded, MatchContext.nearestAmong]
      cases stands : builder.entityOf? outermost with
      | some entity =>
          refine ⟨outermost, ⟨Relation.TransGen.single recorded, Relation.ReflTransGen.refl⟩,
            stands, ?_⟩
          intro other between _
          rw [only other between]
          exact Relation.ReflTransGen.refl
      | none =>
          dsimp only
          rw [if_pos rfl]
          intro node between
          rw [← only node between]
          exact stands
  | @head start parent recorded above induction =>
      have different : parent ≠ outermost := by
        rintro rfl
        exact (grounded parent).not_above_itself above
      have upwards : ∀ node, tree.Between start outermost node →
          parent = node ∨ tree.Between parent outermost node := by
        rintro node ⟨passed, below⟩
        rcases Relation.reflTransGen_iff_eq_or_transGen.1 ((climbs_of_records recorded).1 passed) with
          same | further
        · exact Or.inl same.symm
        · exact Or.inr ⟨further, below⟩
      rw [numbered.ancestors_under grounded recorded, MatchContext.nearestAmong]
      cases stands : builder.entityOf? parent with
      | some entity =>
          refine ⟨parent, ⟨Relation.TransGen.single recorded, above.to_reflTransGen⟩, stands, ?_⟩
          exact fun other between _ => (climbs_of_records recorded).1 between.1
      | none =>
          dsimp only
          rw [if_neg different]
          cases found : MatchContext.nearestAmong builder outermost (tree.ancestors parent) with
          | some entity =>
              rw [found] at induction
              obtain ⟨node, nearest⟩ := induction
              refine ⟨node, ⟨Relation.TransGen.head recorded nearest.between.1, nearest.between.2⟩,
                nearest.stands, ?_⟩
              intro other between mapped
              rcases upwards other between with rfl | further
              · rw [stands] at mapped
                cases mapped
              · exact nearest.deepest other further mapped
          | none =>
              rw [found] at induction
              intro node between
              rcases upwards node between with rfl | further
              · exact stands
              · exact induction node further

end Tree

-- The line in the graph

namespace EntityGraph

def parentAfter (graph : EntityGraph) (start : Option Entity) : Nat → Option Entity
  | 0 => start
  | steps + 1 => (graph.parentAfter start steps).bind fun entity => graph.parentOf? entity.id

/-- No class is among the first entities of a line. -/
def ClasslessBelow (graph : EntityGraph) (start : Option Entity) (steps : Nat) : Prop :=
  ∀ earlier < steps, ∀ entity, graph.parentAfter start earlier = some entity →
    entity.kind ≠ .classKind

/-- The first class on the line of parents. -/
def FirstClass (graph : EntityGraph) (start : Option Entity) (found : Entity) : Prop :=
  ∃ steps, graph.parentAfter start steps = some found ∧ found.kind = .classKind ∧
    graph.ClasslessBelow start steps

/-- The line ends or comes back to an entity before there was a class. That takes no more steps than
the graph has entities. -/
def EndsClassless (graph : EntityGraph) (start : Option Entity) : Prop :=
  ∃ steps ≤ graph.entities.length,
    (graph.parentAfter start steps = none ∨
      ∃ earlier < steps, graph.parentAfter start earlier = graph.parentAfter start steps) ∧
    graph.ClasslessBelow start steps

variable {graph : EntityGraph} {start : Option Entity}

theorem FirstClass.unique {found other : Entity} (first : graph.FirstClass start found)
    (also : graph.FirstClass start other) : found = other := by
  obtain ⟨steps, reached, isClass, classless⟩ := first
  obtain ⟨others, reachedOther, otherIsClass, classlessOther⟩ := also
  rcases Nat.lt_trichotomy steps others with fewer | same | more
  · exact absurd isClass (classlessOther steps fewer found reached)
  · rw [same, reachedOther] at reached
    exact (Option.some.inj reached).symm
  · exact absurd otherIsClass (classless others more other reachedOther)

theorem parent_after_end {steps : Nat} (ended : graph.parentAfter start steps = none) :
    ∀ more, steps ≤ more → graph.parentAfter start more = none := by
  intro more later
  induction later with
  | refl => exact ended
  | step _ induction => rw [parentAfter, induction, Option.bind_none]

/-- A line that came back brings nothing new. -/
theorem parent_after_circle {steps earlier : Nat} (fewer : earlier < steps)
    (back : graph.parentAfter start earlier = graph.parentAfter start steps) (more : Nat) :
    ∃ before < steps, graph.parentAfter start before = graph.parentAfter start more := by
  induction more with
  | zero => exact ⟨0, by omega, rfl⟩
  | succ more induction =>
      obtain ⟨before, inside, same⟩ := induction
      have next : graph.parentAfter start (before + 1) = graph.parentAfter start (more + 1) := by
        rw [parentAfter, parentAfter, same]
      rcases Nat.lt_or_eq_of_le (Nat.succ_le_of_lt inside) with still | reached
      · exact ⟨before + 1, still, next⟩
      · refine ⟨earlier, fewer, back.trans ?_⟩
        rw [← next, ← reached]

theorem FirstClass.not_ends_classless {found : Entity} (first : graph.FirstClass start found) :
    ¬graph.EndsClassless start := by
  rintro ⟨steps, _, finished, classless⟩
  obtain ⟨more, reached, isClass, _⟩ := first
  rcases finished with ended | ⟨earlier, fewer, back⟩
  · have inside : more < steps := by
      by_contra later
      rw [parent_after_end ended more (by omega)] at reached
      cases reached
    exact classless more inside found reached isClass
  · obtain ⟨before, inside, same⟩ := parent_after_circle fewer back more
    exact classless before inside found (same.trans reached) isClass

section Walk

variable (present : ∀ entity, start = some entity → graph.entity? entity.id = some entity)
include present

/-- Everything on the line is found under its id, so that an id stands for one entity. -/
theorem parent_after_present (steps : Nat) {entity : Entity}
    (reached : graph.parentAfter start steps = some entity) :
    graph.entity? entity.id = some entity := by
  cases steps with
  | zero => exact present entity reached
  | succ steps =>
      obtain ⟨child, _, parent⟩ := Option.bind_eq_some_iff.1 reached
      obtain ⟨edge, _, looked⟩ := Option.bind_eq_some_iff.1 parent
      rw [id_of_entity looked]
      exact looked

/-- The state of the walk after some steps: it visited that many ids, none twice and no class. -/
structure Climbed (graph : EntityGraph) (start : Option Entity) (steps : Nat)
    (visited : List String) : Prop where
  count : visited.length = steps
  distinct : visited.Nodup
  passed : ∀ id ∈ visited, ∃ earlier < steps, ∃ entity,
    graph.parentAfter start earlier = some entity ∧ entity.id = id
  classless : graph.ClasslessBelow start steps

omit present in
theorem Climbed.beginning : Climbed graph start 0 [] where
  count := rfl
  distinct := List.nodup_nil
  passed := nofun
  classless := nofun

omit present in
theorem Climbed.step {steps : Nat} {visited : List String} {entity : Entity}
    (climbed : Climbed graph start steps visited)
    (reached : graph.parentAfter start steps = some entity) (other : entity.kind ≠ .classKind)
    (fresh : entity.id ∉ visited) : Climbed graph start (steps + 1) (entity.id :: visited) where
  count := congrArg Nat.succ climbed.count
  distinct := List.nodup_cons.2 ⟨fresh, climbed.distinct⟩
  passed := by
    intro id listed
    rcases List.mem_cons.1 listed with rfl | before
    · exact ⟨steps, Nat.lt_succ_self steps, entity, reached, rfl⟩
    · obtain ⟨earlier, fewer, found⟩ := climbed.passed id before
      exact ⟨earlier, Nat.lt_succ_of_lt fewer, found⟩
  classless := by
    intro earlier fewer found stands
    rcases Nat.lt_succ_iff_lt_or_eq.1 fewer with before | rfl
    · exact climbed.classless earlier before found stands
    · rw [reached] at stands
      rw [← Option.some.inj stands]
      exact other

theorem Climbed.few {steps : Nat} {visited : List String}
    (climbed : Climbed graph start steps visited) : steps ≤ graph.entities.length := by
  have inside : visited ⊆ graph.ids := by
    intro id listed
    obtain ⟨earlier, _, entity, reached, same⟩ := climbed.passed id listed
    rw [← same]
    exact mem_ids_of_mem (mem_of_entity (parent_after_present present earlier reached))
  have short := climbed.distinct.length_le_of_subset inside
  rw [climbed.count, ids, List.length_map] at short
  exact short

/-- The walk goes on from any state to the first class, or finds that there is none. Its bound is
never what ends it: with that many ids visited the line must have come back. -/
theorem Climbed.class_upwards {bound steps : Nat} {visited : List String}
    (climbed : Climbed graph start steps visited) (enough : graph.entities.length < steps + bound) :
    Finds (graph.EndsClassless start) (graph.FirstClass start)
      (MatchContext.classUpwards graph bound visited (graph.parentAfter start steps)) := by
  induction bound generalizing steps visited with
  | zero => exact absurd (climbed.few present) (Nat.not_le_of_lt enough)
  | succ bound induction =>
      cases reached : graph.parentAfter start steps with
      | none => exact ⟨steps, climbed.few present, Or.inl reached, climbed.classless⟩
      | some entity =>
          rw [MatchContext.classUpwards]
          by_cases isClass : entity.kind = .classKind
          · rw [if_pos isClass]
            exact ⟨steps, reached, isClass, climbed.classless⟩
          · rw [if_neg isClass]
            by_cases again : entity.id ∈ visited
            · rw [if_pos (List.contains_iff_mem.2 again)]
              obtain ⟨earlier, fewer, first, before, same⟩ := climbed.passed entity.id again
              have looked := parent_after_present present earlier before
              rw [same, parent_after_present present steps reached] at looked
              refine ⟨steps, climbed.few present, Or.inr ⟨earlier, fewer, ?_⟩, climbed.classless⟩
              rw [before, reached, looked]
            · rw [if_neg fun listed => again (List.contains_iff_mem.1 listed)]
              have next : graph.parentAfter start (steps + 1) = graph.parentOf? entity.id := by
                rw [parentAfter, reached, Option.bind_some]
              rw [← next]
              exact induction (climbed.step reached isClass again) (by omega)

theorem class_upwards_iff :
    let found := MatchContext.classUpwards graph (graph.entities.length + 2) [] start
    (∀ entity, found = some entity ↔ graph.FirstClass start entity) ∧
      (found = none ↔ graph.EndsClassless start) :=
  (Climbed.beginning.class_upwards present (by omega)).iff
    (fun _ _ first also => first.unique also) fun _ first => first.not_ends_classless

end Walk

-- Superclasses

/-- The edge makes the entity with that id a subclass of the class found. -/
def InheritsClass (graph : EntityGraph) (id : String) (edge : Edge) (found : Entity) : Prop :=
  edge.source = id ∧ edge.type = .inherits ∧ graph.entity? edge.target = some found ∧
    found.kind = .classKind

def FirstSuperclass (graph : EntityGraph) (id : String) (found : Entity) : Prop :=
  ∃ before edge behind, graph.edges = before ++ edge :: behind ∧ graph.InheritsClass id edge found ∧
    ∀ earlier ∈ before, ∀ other, ¬graph.InheritsClass id earlier other

def superclassBy? (graph : EntityGraph) (id : String) (edge : Edge) : Option Entity :=
  if edge.source = id ∧ edge.type = .inherits then
    (graph.entity? edge.target).filter fun entity => entity.kind = .classKind
  else none

theorem superclass_by_iff {id : String} {edge : Edge} {found : Entity} :
    graph.superclassBy? id edge = some found ↔ graph.InheritsClass id edge found := by
  unfold superclassBy? InheritsClass
  by_cases inherits : edge.source = id ∧ edge.type = .inherits
  · simp [inherits, Option.filter_eq_some_iff]
  · simp only [if_neg inherits, reduceCtorEq, false_iff]
    exact fun stands => inherits ⟨stands.1, stands.2.1⟩

def superclass? (graph : EntityGraph) (entity : Entity) : Option Entity :=
  (graph.supertypesOf entity.id).find? fun supertype => supertype.kind = .classKind

theorem superclass_by_first_edge (entity : Entity) :
    graph.superclass? entity = graph.edges.findSome? (graph.superclassBy? entity.id) := by
  unfold superclass? supertypesOf outgoing
  induction graph.edges with
  | nil => rfl
  | cons edge rest induction =>
      rw [List.findSome?_cons, superclassBy?, List.filter_cons]
      by_cases leaves : edge.source = entity.id
      · by_cases inherits : edge.type = .inherits
        · cases looked : graph.entity? edge.target with
          | none => simpa [leaves, inherits, looked] using induction
          | some supertype =>
              by_cases isClass : supertype.kind = .classKind
              · simp [leaves, inherits, looked, isClass, Option.filter]
              · simpa [leaves, inherits, looked, isClass, Option.filter] using induction
        · simpa [leaves, inherits] using induction
      · simpa [leaves] using induction

theorem superclass_iff {entity super : Entity} :
    graph.superclass? entity = some super ↔ graph.FirstSuperclass entity.id super := by
  rw [superclass_by_first_edge, List.findSome?_eq_some_iff]
  simp only [superclass_by_iff, Option.eq_none_iff_forall_not_mem, Option.mem_def]
  rfl

end EntityGraph

-- What the names stand for

namespace MatchContext

theorem require_entity_ok_iff {cause : ResolveError} {found : Option Entity} {value : Value} :
    requireEntity cause found = .ok value ↔
      ∃ entity, found = some entity ∧ value = .entity entity.id := by
  cases found <;> simp [requireEntity, eq_comm]

theorem require_entity_error_iff {cause error : ResolveError} {found : Option Entity} :
    requireEntity cause found = .error error ↔ error = cause ∧ found = none := by
  cases found <;> simp [requireEntity, eq_comm]

end MatchContext

theorem GraphBuilder.entity_of_node_present {builder : GraphBuilder} {node : NodeId}
    {entity : Entity} (stands : builder.entityOf? node = some entity) :
    builder.graph.entity? entity.id = some entity := by
  obtain ⟨id, _, found⟩ := Option.bind_eq_some_iff.1 stands
  rw [EntityGraph.id_of_entity found]
  exact found

section Site

variable {site : MatchSite} {builder : GraphBuilder}

/-- A proper ancestor of the start of a match, no further up than its outermost enclosing match. -/
def MatchSite.Encloses (site : MatchSite) (node : NodeId) : Prop :=
  ∃ outermost ∈ site.ancestors.head?, site.tree.Between site.start outermost node

/-- The entity of the deepest of these nodes that has one. -/
def MatchSite.EnclosedBy (site : MatchSite) (builder : GraphBuilder) (entity : Entity) : Prop :=
  ∃ outermost ∈ site.ancestors.head?, ∃ node,
    site.tree.Nearest builder site.start outermost node entity

/-- Where the walk for the enclosing class starts: at the entity of the match, or else the nearest one
above it. -/
def MatchSite.lineStart (site : MatchSite) (builder : GraphBuilder) (nearest : Option Entity) :
    Option Entity :=
  (builder.entityOf? site.start).or nearest

section Line

variable {nearest : Option Entity} (above : (site.inGraph builder).nearestAncestor = .ok nearest)
  (present : ∀ entity, nearest = some entity → builder.graph.entity? entity.id = some entity)
include above

theorem enclosing_class_from :
    (site.inGraph builder).enclosingClass = .ok (MatchContext.classUpwards builder.graph
      (builder.graph.entities.length + 2) [] (site.lineStart builder nearest)) := by
  rw [enclosing_class_in_graph, above, MatchSite.lineStart]
  cases builder.entityOf? site.start <;> rfl

omit above in
include present in
theorem class_from_iff (site : MatchSite) :
    let start := site.lineStart builder nearest
    let found := MatchContext.classUpwards builder.graph (builder.graph.entities.length + 2) [] start
    (∀ entity, found = some entity ↔ builder.graph.FirstClass start entity) ∧
      (found = none ↔ builder.graph.EndsClassless start) := by
  apply EntityGraph.class_upwards_iff
  intro entity starts
  rcases Option.or_eq_some_iff.1 starts with stands | ⟨_, isNearest⟩
  · exact GraphBuilder.entity_of_node_present stands
  · exact present entity isNearest

include present

theorem lookup_enclosing_class_iff (unbound : site.captures.find? "enclosing_class" = none) :
    (∀ value, (site.inGraph builder).lookup "enclosing_class" = .ok value ↔
      ∃ found, builder.graph.FirstClass (site.lineStart builder nearest) found ∧
        value = .entity found.id) ∧
    ∀ error, (site.inGraph builder).lookup "enclosing_class" = .error error ↔
      error = .missingCapture "enclosing_class" ∧
        builder.graph.EndsClassless (site.lineStart builder nearest) := by
  obtain ⟨first_iff, classless_iff⟩ := class_from_iff present site
  have looked : (site.inGraph builder).lookup "enclosing_class" = MatchContext.requireEntity
      (.missingCapture "enclosing_class") (MatchContext.classUpwards builder.graph
        (builder.graph.entities.length + 2) [] (site.lineStart builder nearest)) := by
    rw [lookup_in_graph, unbound]
    dsimp only
    rw [MatchContext.special, enclosing_class_from above]
    rfl
  rw [looked]
  simp only [MatchContext.require_entity_ok_iff, MatchContext.require_entity_error_iff, first_iff,
    classless_iff, implies_true, and_self]

theorem lookup_superclass_iff (unbound : site.captures.find? "superclass" = none) :
    (∀ value, (site.inGraph builder).lookup "superclass" = .ok value ↔
      ∃ found super, builder.graph.FirstClass (site.lineStart builder nearest) found ∧
        builder.graph.FirstSuperclass found.id super ∧ value = .entity super.id) ∧
    ∀ error, (site.inGraph builder).lookup "superclass" = .error error ↔
      error = .missingCapture "superclass" ∧
        ∀ found super, builder.graph.FirstClass (site.lineStart builder nearest) found →
          ¬builder.graph.FirstSuperclass found.id super := by
  obtain ⟨first_iff, _⟩ := class_from_iff present site
  have looked : (site.inGraph builder).lookup "superclass" = MatchContext.requireEntity
      (.missingCapture "superclass") ((MatchContext.classUpwards builder.graph
        (builder.graph.entities.length + 2) [] (site.lineStart builder nearest)).bind
          builder.graph.superclass?) := by
    rw [lookup_in_graph, unbound]
    dsimp only
    rw [MatchContext.special, enclosing_class_from above]
    cases MatchContext.classUpwards builder.graph (builder.graph.entities.length + 2) []
      (site.lineStart builder nearest) <;> rfl
  rw [looked]
  constructor
  · intro value
    rw [MatchContext.require_entity_ok_iff]
    simp only [Option.bind_eq_some_iff, first_iff, EntityGraph.superclass_iff]
    constructor
    · rintro ⟨super, ⟨found, first, inherits⟩, same⟩
      exact ⟨found, super, first, inherits, same⟩
    · rintro ⟨found, super, first, inherits, same⟩
      exact ⟨super, ⟨found, first, inherits⟩, same⟩
  · intro error
    rw [MatchContext.require_entity_error_iff, and_congr_right_iff]
    intro _
    simp only [Option.eq_none_iff_forall_ne_some, ne_eq, Option.bind_eq_some_iff, first_iff,
      EntityGraph.superclass_iff, not_exists, not_and]
    exact ⟨fun none found super first => none super found first,
      fun none super found first => none found super first⟩

end Line

variable (numbered : site.tree.Numbered) (grounded : ∀ node, site.tree.Grounded node)
  (enclosed : ∀ outermost ∈ site.ancestors.head?,
    Relation.TransGen site.tree.Records site.start outermost)
include numbered grounded enclosed

theorem nearest_ancestor_iff (builder : GraphBuilder) :
    ∃ nearest, (site.inGraph builder).nearestAncestor = .ok nearest ∧
      (∀ entity, nearest = some entity ↔ site.EnclosedBy builder entity) ∧
      (nearest = none ↔
        site.ancestors = [] ∨ ∀ node, site.Encloses node → builder.entityOf? node = none) := by
  rw [nearest_ancestor_in_graph]
  unfold MatchSite.EnclosedBy MatchSite.Encloses
  cases listed : site.ancestors with
  | nil => exact ⟨none, rfl, by simp, by simp⟩
  | cons outermost inner =>
      have above := enclosed outermost (by rw [listed]; rfl)
      have known : site.tree.contains site.start = true := by
        obtain ⟨parent, recorded, _⟩ := Relation.TransGen.head'_iff.1 above
        by_contra unknown
        rw [Tree.Records, Tree.parent?, Tree.node_of_unknown unknown] at recorded
        cases recorded
      refine ⟨_, if_pos known, ?_⟩
      simp only [List.head?_cons, Option.mem_def, Option.some.injEq, exists_eq_left',
        reduceCtorEq, false_or]
      apply (numbered.nearest_among grounded builder above).iff
      · rintro first second ⟨_, nearest⟩ ⟨_, also⟩
        exact nearest.unique grounded also
      · rintro entity ⟨node, nearest⟩ nowhere
        have missing := nowhere node nearest.between
        rw [nearest.stands] at missing
        cases missing

/-- What a match finds above it, in any tree whose lines of parents end and in any graph, circles
included. Above its start, that is the entity of the deepest enclosing node that has one. From the
start's own entity, or else from that one, `@enclosing_class` is the first class on the line of
parents and fails exactly if that line ends or comes back without one; `@superclass` is where the
first edge leads by which that class inherits from a class. -/
theorem enclosing_lookups_iff (builder : GraphBuilder) :
    let context := site.inGraph builder
    ∃ nearest, context.nearestAncestor = .ok nearest ∧
      (∀ entity, nearest = some entity ↔ site.EnclosedBy builder entity) ∧
      (nearest = none ↔
        site.ancestors = [] ∨ ∀ node, site.Encloses node → builder.entityOf? node = none) ∧
      let start := site.lineStart builder nearest
      (site.captures.find? "enclosing_class" = none →
        (∀ value, context.lookup "enclosing_class" = .ok value ↔
          ∃ found, builder.graph.FirstClass start found ∧ value = .entity found.id) ∧
        ∀ error, context.lookup "enclosing_class" = .error error ↔
          error = .missingCapture "enclosing_class" ∧ builder.graph.EndsClassless start) ∧
      (site.captures.find? "superclass" = none →
        (∀ value, context.lookup "superclass" = .ok value ↔
          ∃ found super, builder.graph.FirstClass start found ∧
            builder.graph.FirstSuperclass found.id super ∧ value = .entity super.id) ∧
        ∀ error, context.lookup "superclass" = .error error ↔
          error = .missingCapture "superclass" ∧
            ∀ found super, builder.graph.FirstClass start found →
              ¬builder.graph.FirstSuperclass found.id super) := by
  intro context
  obtain ⟨nearest, above, found_iff, none_iff⟩ :=
    nearest_ancestor_iff numbered grounded enclosed builder
  have present : ∀ entity, nearest = some entity →
      builder.graph.entity? entity.id = some entity := by
    intro entity isNearest
    obtain ⟨_, _, _, nearestIs⟩ := (found_iff entity).1 isNearest
    exact GraphBuilder.entity_of_node_present nearestIs.stands
  exact ⟨nearest, above, found_iff, none_iff, lookup_enclosing_class_iff above present,
    lookup_superclass_iff above present⟩

end Site

def methodTree : Tree :=
  Tree.builtBy [.addNode none "file" "" ⟨0, 0, 1, 0⟩, .pushChild 0 "class" "" ⟨0, 0, 1, 0⟩,
    .pushChild 1 "method" "" ⟨0, 0, 1, 0⟩]

def methodSite : MatchSite := ⟨methodTree, 2, .empty, [0]⟩

/-- The entity `C`, of any kind, contains the method, which defines `C` in turn. It inherits from an
object first and from a class next. -/
def circularBuilder (kind : EntityKind) : GraphBuilder :=
  ⟨⟨[.resolved "f" .package none none, .resolved "C" kind none none,
      .resolved "m" .function none none, .resolved "O" .object none none,
      .resolved "D" .classKind none none],
    [⟨"C", "m", .contains, "", ⟨0, 0, 1, 0⟩⟩, ⟨"m", "C", .defines, "", ⟨0, 0, 1, 0⟩⟩,
      ⟨"C", "O", .inherits, "", ⟨0, 0, 1, 0⟩⟩, ⟨"C", "D", .inherits, "", ⟨0, 0, 1, 0⟩⟩]⟩,
    "", [(2, "m"), (1, "C"), (0, "f")], []⟩

theorem method_tree_grounded (node : NodeId) : methodTree.Grounded node := by
  have file : methodTree.Grounded 0 := .top (by decide)
  have body : methodTree.Grounded 1 := .under (show methodTree.parent? 1 = some 0 by decide) file
  have method : methodTree.Grounded 2 := .under (show methodTree.parent? 2 = some 1 by decide) body
  match node with
  | 0 => exact file
  | 1 => exact body
  | 2 => exact method
  | other + 3 =>
      apply Tree.Grounded.top
      have unknown : ¬methodTree.contains (other + 3) = true := by
        have size : methodTree.size = 3 := by decide
        simp [Tree.contains, size]
      rw [Tree.parent?, Tree.node_of_unknown unknown]
      rfl

/-- The method's class is found though it is its own parent's parent, and so is what it inherits from,
past the object. Were it no class, the circle would end the walk. -/
theorem circular_parents_end :
    methodTree.Numbered ∧ (∀ node, methodTree.Grounded node) ∧
      (∀ outermost ∈ methodSite.ancestors.head?,
        Relation.TransGen methodTree.Records 2 outermost) ∧
      (methodSite.inGraph (circularBuilder .classKind)).nearestAncestor =
        .ok (some (.resolved "C" .classKind none none)) ∧
      (methodSite.inGraph (circularBuilder .classKind)).lookup "enclosing_class" =
        .ok (.entity "C") ∧
      (methodSite.inGraph (circularBuilder .classKind)).lookup "superclass" = .ok (.entity "D") ∧
      (methodSite.inGraph (circularBuilder .package)).lookup "enclosing_class" =
        .error (.missingCapture "enclosing_class") := by
  have numbered : methodTree.Numbered := (Tree.built_by_reachable _).wellFormed.toNumbered
  have parents : methodTree.Records 2 1 ∧ methodTree.Records 1 0 :=
    ⟨show methodTree.parent? 2 = some 1 by decide, show methodTree.parent? 1 = some 0 by decide⟩
  have enclosed : ∀ outermost ∈ methodSite.ancestors.head?,
      Relation.TransGen methodTree.Records 2 outermost := by
    rintro outermost ⟨⟩
    exact .head parents.1 (.single parents.2)
  obtain ⟨nearest, above, nearest_iff, _, enclosing, superclass⟩ :=
    @enclosing_lookups_iff methodSite numbered method_tree_grounded enclosed
      (circularBuilder .classKind)
  obtain ⟨_, _, _, _, lacking, _⟩ :=
    @enclosing_lookups_iff methodSite numbered method_tree_grounded enclosed
      (circularBuilder .package)
  have nearestIs : nearest = some (.resolved "C" .classKind none none) := by
    refine (nearest_iff _).2 ⟨0, rfl, 1, ⟨⟨.single parents.1, .single parents.2⟩, rfl, ?_⟩⟩
    exact fun other between _ => (Tree.climbs_of_records parents.1).1 between.1
  rw [nearestIs] at above
  have first : (circularBuilder .classKind).graph.FirstClass
      (some (.resolved "m" .function none none)) (.resolved "C" .classKind none none) := by
    refine ⟨1, rfl, rfl, ?_⟩
    intro earlier fewer entity reached
    cases Nat.lt_one_iff.1 fewer
    cases reached
    decide
  have circle : (circularBuilder .package).graph.EndsClassless
      (some (.resolved "m" .function none none)) := by
    refine ⟨2, by decide, Or.inr ⟨0, by decide, rfl⟩, ?_⟩
    intro earlier fewer entity reached
    match earlier with
    | 0 =>
        cases reached
        decide
    | 1 =>
        cases reached
        decide
  have inherits : (circularBuilder .classKind).graph.FirstSuperclass "C"
      (.resolved "D" .classKind none none) :=
    EntityGraph.superclass_iff.1 (show EntityGraph.superclass? _
      (.resolved "C" .classKind none none) = _ from rfl)
  refine ⟨numbered, method_tree_grounded, enclosed, above, ?_, ?_, ?_⟩
  · exact ((enclosing rfl).1 _).2 ⟨_, first, rfl⟩
  · exact ((superclass rfl).1 _).2 ⟨_, _, first, inherits, rfl⟩
  · exact ((lacking rfl).2 _).2 ⟨rfl, circle⟩

end SyntaxGraph
