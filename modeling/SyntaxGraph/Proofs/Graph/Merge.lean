import Mathlib.Data.List.Induction
import SyntaxGraph.Proofs.Graph.Lookup

/-!
Merging graphs. Under every id the first definition wins, or the first mention where nothing
defines it; new ids are appended, and so are all edges. On graphs in which ids are distinct and
edges have their ends, the grouping of the merges does not matter.
-/

set_option autoImplicit false

namespace SyntaxGraph

namespace Entity

/-- Of two entities under one id the first one stays, unless it dangles and the second does not. -/
def prefer : Option Entity → Option Entity → Option Entity
  | none, second => second
  | some first, none => some first
  | some first, some second =>
      if first.isDangling && !second.isDangling then some second else some first

@[simp] theorem prefer_none (first : Option Entity) : prefer first none = first := by
  cases first <;> rfl

@[simp] theorem none_prefer (second : Option Entity) : prefer none second = second := by
  cases second <;> rfl

theorem prefer_assoc (first second third : Option Entity) :
    prefer (prefer first second) third = prefer first (prefer second third) := by
  cases first with
  | none => simp
  | some left =>
      cases second with
      | none => simp
      | some middle =>
          cases third with
          | none => simp
          | some right =>
              cases dangles : left.isDangling <;> cases middleDangles : middle.isDangling <;>
                cases rightDangles : right.isDangling <;>
                simp [prefer, dangles, middleDangles, rightDangles]

/-- A definition goes before every mention, and otherwise the first goes before the second. -/
theorem prefer_eq_or (first second : Option Entity) :
    prefer first second =
      (first.filter fun entity => !entity.isDangling).or
        ((second.filter fun entity => !entity.isDangling).or (first.or second)) := by
  cases first with
  | none =>
      cases second with
      | none => rfl
      | some right => cases dangles : right.isDangling <;> simp [Option.filter_some, dangles]
  | some left =>
      cases second with
      | none => cases dangles : left.isDangling <;> simp [Option.filter_some, dangles]
      | some right =>
          cases dangles : left.isDangling <;> cases mentioned : right.isDangling <;>
            simp [prefer, Option.filter_some, dangles, mentioned]

theorem prefer_eq_some {first second : Option Entity} {entity : Entity}
    (preferred : prefer first second = some entity) :
    first = some entity ∨ second = some entity := by
  cases first with
  | none => exact Or.inr (by simpa using preferred)
  | some left =>
      cases second with
      | none => exact Or.inl (by simpa using preferred)
      | some right =>
          rw [prefer] at preferred
          split at preferred
          · exact Or.inr preferred
          · exact Or.inl preferred

end Entity

namespace EntityGraph

/-- No id occurs twice, and every edge has both of its ends in the graph. -/
structure WellFormed (graph : EntityGraph) : Prop where
  ids_distinct : graph.ids.Nodup
  ends_present : ∀ edge ∈ graph.edges, edge.source ∈ graph.ids ∧ edge.target ∈ graph.ids

/-- The entity under an id if it is resolved. -/
def resolved? (graph : EntityGraph) (id : String) : Option Entity :=
  (graph.entity? id).filter fun entity => !entity.isDangling

variable {graph other : EntityGraph}

theorem empty_well_formed : empty.WellFormed := ⟨List.nodup_nil, by simp [empty]⟩

-- One entity, one edge

theorem ids_merge_entity (entity : Entity) :
    (graph.mergeEntity entity).ids = withId graph.ids entity.id := by
  unfold mergeEntity
  cases looked : graph.entity? entity.id with
  | none => exact ids_add_entity entity
  | some present =>
      dsimp only
      split
      · have member := mem_ids_of_mem (mem_of_entity looked)
        rw [id_of_entity looked] at member
        rw [withId, if_pos member]
      · exact ids_add_entity entity

theorem entity_merge_entity (entity : Entity) (id : String) :
    (graph.mergeEntity entity).entity? id =
      if id = entity.id then Entity.prefer (graph.entity? id) (some entity)
      else graph.entity? id := by
  unfold mergeEntity
  by_cases same : id = entity.id
  · subst same
    rw [if_pos rfl]
    cases looked : graph.entity? entity.id with
    | none => simp [entity_add_entity]
    | some present =>
        dsimp only
        cases dangles : present.isDangling <;> cases mentioned : entity.isDangling <;>
          simp [Entity.prefer, entity_add_entity, dangles, mentioned, looked]
  · rw [if_neg same]
    cases graph.entity? entity.id with
    | none => simp [entity_add_entity, same]
    | some present =>
        dsimp only
        split
        · rfl
        · simp [entity_add_entity, same]

theorem edges_merge_entity (entity : Entity) : (graph.mergeEntity entity).edges = graph.edges := by
  unfold mergeEntity
  split
  · split
    · rfl
    · exact edges_add_entity entity
  · exact edges_add_entity entity

-- All entities of a graph, one after another

theorem ids_merge_entities (entities : List Entity)
    (distinct : (entities.map (·.id)).Nodup) :
    (entities.foldl mergeEntity graph).ids =
      graph.ids ++ (entities.map (·.id)).filter (· ∉ graph.ids) := by
  induction entities generalizing graph with
  | nil => simp
  | cons entity rest induction =>
      obtain ⟨fresh, later⟩ := List.nodup_cons.1 distinct
      rw [List.foldl_cons, induction later, ids_merge_entity, List.map_cons]
      by_cases present : entity.id ∈ graph.ids
      · rw [withId, if_pos present, List.filter_cons_of_neg (by simpa using present)]
      · have sameRest : (rest.map (·.id)).filter (· ∉ graph.ids ++ [entity.id]) =
            (rest.map (·.id)).filter (· ∉ graph.ids) := by
          apply List.filter_congr
          intro id member
          have distinctId : id ≠ entity.id := by
            rintro rfl
            exact fresh member
          simp [distinctId]
        rw [withId, if_neg present, sameRest, List.filter_cons_of_pos (by simpa using present),
          List.append_assoc, List.singleton_append]

theorem entity_merge_entities (entities : List Entity)
    (distinct : (entities.map (·.id)).Nodup) (id : String) :
    (entities.foldl mergeEntity graph).entity? id =
      Entity.prefer (graph.entity? id) (entities.find? fun entity => entity.id = id) := by
  induction entities generalizing graph with
  | nil => simp
  | cons entity rest induction =>
      obtain ⟨fresh, later⟩ := List.nodup_cons.1 distinct
      rw [List.foldl_cons, induction later, entity_merge_entity]
      by_cases same : id = entity.id
      · subst same
        have absent : rest.find? (fun found => found.id = entity.id) = none := by
          apply List.find?_eq_none.2
          intro found member same
          have again : found.id ∈ rest.map (·.id) := List.mem_map_of_mem member
          rw [of_decide_eq_true same] at again
          exact fresh again
        rw [if_pos rfl, absent, Entity.prefer_none, List.find?_cons, decide_eq_true rfl]
      · rw [if_neg same, List.find?_cons_of_neg (by simpa using Ne.symm same)]

theorem edges_merge_entities (entities : List Entity) :
    (entities.foldl mergeEntity graph).edges = graph.edges := by
  induction entities generalizing graph with
  | nil => rfl
  | cons entity rest induction => rw [List.foldl_cons, induction, edges_merge_entity]

theorem merge_edges (edges : List Edge)
    (present : ∀ edge ∈ edges, edge.source ∈ graph.ids ∧ edge.target ∈ graph.ids) :
    edges.foldl mergeEdge graph = { graph with edges := graph.edges ++ edges } := by
  induction edges generalizing graph with
  | nil => simp
  | cons edge rest induction =>
      obtain ⟨source, target⟩ := present edge (by simp)
      have added : graph.mergeEdge edge = graph.appendEdge edge := by
        simp [mergeEdge, addEdge?, contains_iff.2 source, contains_iff.2 target]
      have kept : ∀ later ∈ rest, later.source ∈ (graph.appendEdge edge).ids ∧
          later.target ∈ (graph.appendEdge edge).ids :=
        fun later member => present later (List.mem_cons_of_mem _ member)
      rw [List.foldl_cons, added, induction kept]
      simp [appendEdge]

-- Whole graphs

section Merge

variable (well : other.WellFormed)
include well

theorem merge_eq : graph.merge other =
    { other.entities.foldl mergeEntity graph with edges := graph.edges ++ other.edges } := by
  have present : ∀ edge ∈ other.edges,
      edge.source ∈ (other.entities.foldl mergeEntity graph).ids ∧
        edge.target ∈ (other.entities.foldl mergeEntity graph).ids := by
    have grown : ∀ id ∈ other.ids, id ∈ (other.entities.foldl mergeEntity graph).ids := by
      intro id member
      rw [ids_merge_entities _ well.ids_distinct]
      by_cases known : id ∈ graph.ids
      · exact List.mem_append_left _ known
      · exact List.mem_append_right _ (List.mem_filter.2 ⟨member, decide_eq_true known⟩)
    intro edge member
    obtain ⟨source, target⟩ := well.ends_present edge member
    exact ⟨grown _ source, grown _ target⟩
  rw [merge, merge_edges _ present, edges_merge_entities]

theorem ids_merge : (graph.merge other).ids = graph.ids ++ other.ids.filter (· ∉ graph.ids) := by
  rw [merge_eq well]
  exact ids_merge_entities _ well.ids_distinct

theorem entity_merge (id : String) :
    (graph.merge other).entity? id = Entity.prefer (graph.entity? id) (other.entity? id) := by
  rw [merge_eq well]
  exact entity_merge_entities _ well.ids_distinct id

theorem resolved_merge (id : String) :
    (graph.merge other).resolved? id = (graph.resolved? id).or (other.resolved? id) := by
  rw [resolved?, resolved?, resolved?, entity_merge well]
  cases graph.entity? id with
  | none => simp
  | some left =>
      cases other.entity? id with
      | none => simp
      | some right =>
          cases dangles : left.isDangling <;> cases mentioned : right.isDangling <;>
            simp [Entity.prefer, Option.filter_some, dangles, mentioned]

theorem edges_merge : (graph.merge other).edges = graph.edges ++ other.edges := by
  rw [merge_eq well]

theorem mem_ids_merge {id : String} :
    id ∈ (graph.merge other).ids ↔ id ∈ graph.ids ∨ id ∈ other.ids := by
  rw [ids_merge well, List.mem_append, List.mem_filter, decide_eq_true_eq]
  by_cases known : id ∈ graph.ids <;> simp [known]

omit well in
theorem WellFormed.merge (before : graph.WellFormed) (well : other.WellFormed) :
    (graph.merge other).WellFormed := by
  constructor
  · rw [ids_merge well]
    refine List.nodup_append.2 ⟨before.ids_distinct, well.ids_distinct.filter _, ?_⟩
    intro id member later filtered same
    rw [← same] at filtered
    exact of_decide_eq_true (List.mem_filter.1 filtered).2 member
  · intro edge member
    rw [edges_merge well] at member
    rw [mem_ids_merge well, mem_ids_merge well]
    rcases List.mem_append.1 member with own | others
    · obtain ⟨source, target⟩ := before.ends_present edge own
      exact ⟨Or.inl source, Or.inl target⟩
    · obtain ⟨source, target⟩ := well.ends_present edge others
      exact ⟨Or.inr source, Or.inr target⟩

theorem empty_merge : empty.merge other = other := by
  have distinct := (empty_well_formed.merge well).ids_distinct
  apply ext_of_lookup distinct
  · rw [ids_merge well]
    simp [empty, ids]
  · intro id
    rw [entity_merge well]
    exact Entity.none_prefer _
  · rw [edges_merge well]
    rfl

end Merge

theorem merge_empty : graph.merge empty = graph := rfl

theorem merge_assoc {first second third : EntityGraph} (wellFirst : first.WellFormed)
    (wellSecond : second.WellFormed) (wellThird : third.WellFormed) :
    (first.merge second).merge third = first.merge (second.merge third) := by
  have wellLater : (second.merge third).WellFormed := wellSecond.merge wellThird
  apply ext_of_lookup ((wellFirst.merge wellSecond).merge wellThird).ids_distinct
  · rw [ids_merge wellThird, ids_merge wellSecond, ids_merge wellLater, ids_merge wellThird,
      List.filter_append, List.filter_filter, List.append_assoc]
    congr 2
    apply List.filter_congr
    intro id _
    by_cases known : id ∈ first.ids <;> simp [known]
  · intro id
    rw [entity_merge wellThird, entity_merge wellSecond, entity_merge wellLater,
      entity_merge wellThird, Entity.prefer_assoc]
  · rw [edges_merge wellThird, edges_merge wellSecond, edges_merge wellLater,
      edges_merge wellThird, List.append_assoc]

-- Any number of graphs

/-- Merges graphs from left to right into an empty one. -/
def mergeAll (graphs : List EntityGraph) : EntityGraph := graphs.foldl merge empty

/-- A way to merge graphs: one by itself, or the results of two ways. -/
inductive Grouping where
  | single (graph : EntityGraph)
  | join (left right : Grouping)

namespace Grouping

def members : Grouping → List EntityGraph
  | single graph => [graph]
  | join left right => left.members ++ right.members

def merged : Grouping → EntityGraph
  | single graph => graph
  | join left right => left.merged.merge right.merged

end Grouping

theorem fold_merge_well_formed {graphs : List EntityGraph}
    (well : ∀ graph ∈ graphs, graph.WellFormed) (before : graph.WellFormed) :
    (graphs.foldl merge graph).WellFormed := by
  induction graphs generalizing graph with
  | nil => exact before
  | cons next rest induction =>
      obtain ⟨first, later⟩ := List.forall_mem_cons.1 well
      exact induction later (before.merge first)

theorem merge_all_well_formed {graphs : List EntityGraph}
    (well : ∀ graph ∈ graphs, graph.WellFormed) : (mergeAll graphs).WellFormed :=
  fold_merge_well_formed well empty_well_formed

theorem fold_merge {graphs : List EntityGraph} (well : ∀ graph ∈ graphs, graph.WellFormed)
    (before : graph.WellFormed) : graphs.foldl merge graph = graph.merge (mergeAll graphs) := by
  induction graphs generalizing graph with
  | nil => rfl
  | cons next rest induction =>
      obtain ⟨first, later⟩ := List.forall_mem_cons.1 well
      rw [mergeAll, List.foldl_cons, List.foldl_cons, empty_merge first,
        induction later (before.merge first), induction later first,
        merge_assoc before first (merge_all_well_formed later)]

theorem merge_all_cons {graphs : List EntityGraph} (first : graph.WellFormed)
    (later : ∀ graph ∈ graphs, graph.WellFormed) :
    mergeAll (graph :: graphs) = graph.merge (mergeAll graphs) := by
  rw [mergeAll, List.foldl_cons, empty_merge first, fold_merge later first]

theorem merge_all_append {earlier later : List EntityGraph}
    (wellEarlier : ∀ graph ∈ earlier, graph.WellFormed)
    (wellLater : ∀ graph ∈ later, graph.WellFormed) :
    mergeAll (earlier ++ later) = (mergeAll earlier).merge (mergeAll later) := by
  rw [mergeAll, List.foldl_append]
  exact fold_merge wellLater (merge_all_well_formed wellEarlier)

theorem erase_dups_of_nodup {ids : List String} (distinct : ids.Nodup) : ids.eraseDups = ids := by
  induction ids with
  | nil => rfl
  | cons id rest induction =>
      obtain ⟨fresh, later⟩ := List.nodup_cons.1 distinct
      have kept : rest.filter (fun other => !other == id) = rest := by
        apply List.filter_eq_self.2
        intro other member
        have differs : other ≠ id := by
          rintro rfl
          exact fresh member
        simpa using differs
      rw [List.eraseDups_cons, kept, induction later]

/-- The ids of all graphs, each where it appears first. -/
theorem ids_merge_all {graphs : List EntityGraph} (well : ∀ graph ∈ graphs, graph.WellFormed) :
    (mergeAll graphs).ids = (graphs.flatMap ids).eraseDups := by
  induction graphs using List.reverseRec with
  | nil => rfl
  | append_singleton earlier last induction =>
      have wellEarlier : ∀ graph ∈ earlier, graph.WellFormed :=
        fun graph member => well graph (List.mem_append_left _ member)
      have wellLast : last.WellFormed := well last (by simp)
      have merged : mergeAll (earlier ++ [last]) = (mergeAll earlier).merge last := by
        rw [mergeAll, List.foldl_append]
        rfl
      have fresh : last.ids.filter (· ∉ (earlier.flatMap ids).eraseDups) =
          last.ids.removeAll (earlier.flatMap ids) := by
        rw [List.removeAll]
        apply List.filter_congr
        intro id _
        simp only [List.mem_eraseDups, List.elem_eq_mem, decide_not]
      have distinct : (last.ids.removeAll (earlier.flatMap ids)).Nodup :=
        wellLast.ids_distinct.filter _
      rw [merged, ids_merge wellLast, induction wellEarlier, fresh, List.flatMap_append,
        List.flatMap_singleton, List.eraseDups_append, erase_dups_of_nodup distinct]

theorem resolved_merge_all {graphs : List EntityGraph}
    (well : ∀ graph ∈ graphs, graph.WellFormed) (id : String) :
    (mergeAll graphs).resolved? id = graphs.findSome? (·.resolved? id) := by
  induction graphs with
  | nil => rfl
  | cons first rest induction =>
      obtain ⟨wellFirst, wellRest⟩ := List.forall_mem_cons.1 well
      rw [merge_all_cons wellFirst wellRest, resolved_merge (merge_all_well_formed wellRest),
        induction wellRest, List.findSome?_cons]
      cases first.resolved? id <;> rfl

/-- The first definition of an id, or where there is none its first mention. -/
theorem entity_merge_all {graphs : List EntityGraph} (well : ∀ graph ∈ graphs, graph.WellFormed)
    (id : String) :
    (mergeAll graphs).entity? id =
      (graphs.findSome? (·.resolved? id)).or (graphs.findSome? (·.entity? id)) := by
  induction graphs with
  | nil => rfl
  | cons first rest induction =>
      obtain ⟨wellFirst, wellRest⟩ := List.forall_mem_cons.1 well
      have defined := resolved_merge_all wellRest id
      rw [resolved?] at defined
      rw [merge_all_cons wellFirst wellRest, entity_merge (merge_all_well_formed wellRest),
        Entity.prefer_eq_or, defined, induction wellRest, List.findSome?_cons,
        List.findSome?_cons, resolved?]
      cases (first.entity? id).filter fun entity => !entity.isDangling with
      | some entity => rfl
      | none =>
          cases first.entity? id <;> cases rest.findSome? (·.resolved? id) <;> rfl

theorem edges_merge_all {graphs : List EntityGraph} (well : ∀ graph ∈ graphs, graph.WellFormed) :
    (mergeAll graphs).edges = graphs.flatMap (·.edges) := by
  induction graphs with
  | nil => rfl
  | cons first rest induction =>
      obtain ⟨wellFirst, wellRest⟩ := List.forall_mem_cons.1 well
      rw [merge_all_cons wellFirst wellRest, edges_merge (merge_all_well_formed wellRest),
        induction wellRest, List.flatMap_cons]

theorem Grouping.merged_eq (grouping : Grouping)
    (well : ∀ graph ∈ grouping.members, graph.WellFormed) :
    grouping.merged = mergeAll grouping.members := by
  induction grouping with
  | single graph => exact (empty_merge (well graph (by simp [members]))).symm
  | join left right leftInduction rightInduction =>
      have wellLeft : ∀ graph ∈ left.members, graph.WellFormed :=
        fun graph member => well graph (List.mem_append_left _ member)
      have wellRight : ∀ graph ∈ right.members, graph.WellFormed :=
        fun graph member => well graph (List.mem_append_right _ member)
      rw [merged, members, leftInduction wellLeft, rightInduction wellRight,
        merge_all_append wellLeft wellRight]

/-- Merging graphs from left to right yields every id where it appears first, with the entity of the
first graph that resolves it, or of the first graph that mentions it where none does, and all edges
one after another. Merging is hence associative with the empty graph as identity, and every grouping
of the graphs yields the same. -/
theorem merge_all_first_definitions (graphs : List EntityGraph)
    (well : ∀ graph ∈ graphs, graph.WellFormed) :
    (mergeAll graphs).ids = (graphs.flatMap ids).eraseDups ∧
      (∀ id, (mergeAll graphs).entity? id =
        (graphs.findSome? (·.resolved? id)).or (graphs.findSome? (·.entity? id))) ∧
      (mergeAll graphs).edges = graphs.flatMap (·.edges) ∧
      (∀ grouping : Grouping, grouping.members = graphs → grouping.merged = mergeAll graphs) ∧
      (∀ graph ∈ graphs, empty.merge graph = graph ∧ graph.merge empty = graph) ∧
      ∀ first ∈ graphs, ∀ second ∈ graphs, ∀ third ∈ graphs,
        (first.merge second).merge third = first.merge (second.merge third) := by
  refine ⟨ids_merge_all well, entity_merge_all well, edges_merge_all well, ?_, ?_, ?_⟩
  · intro grouping same
    subst same
    exact grouping.merged_eq well
  · intro graph member
    exact ⟨empty_merge (well graph member), merge_empty⟩
  · intro first firstMember second secondMember third thirdMember
    exact merge_assoc (well first firstMember) (well second secondMember) (well third thirdMember)

def callingFile : EntityGraph :=
  ⟨[.resolved "a" .function (some "a.py") (some ⟨0, 1, 1, 0⟩), .dangling "b" .object (some "a")],
    [⟨"a", "b", .calls, "a.py", ⟨0, 1, 1, 0⟩⟩]⟩

def calledFile : EntityGraph :=
  ⟨[.dangling "a" .object none, .resolved "b" .function (some "b.py") (some ⟨4, 5, 2, 0⟩)],
    [⟨"b", "a", .calls, "b.py", ⟨4, 5, 2, 0⟩⟩]⟩

theorem call_meets_definition :
    (∀ graph ∈ [callingFile, calledFile], graph.WellFormed) ∧
      (mergeAll [callingFile, calledFile]).ids = ["a", "b"] ∧
      (mergeAll [callingFile, calledFile]).entity? "a" = callingFile.entity? "a" ∧
      (mergeAll [callingFile, calledFile]).entity? "b" = calledFile.entity? "b" ∧
      (mergeAll [callingFile, calledFile]).edges.map (·.file) = ["a.py", "b.py"] := by
  have well : ∀ graph ∈ [callingFile, calledFile], graph.WellFormed := by
    have calling : callingFile.WellFormed := ⟨by decide, by decide⟩
    have called : calledFile.WellFormed := ⟨by decide, by decide⟩
    simp [calling, called]
  obtain ⟨ids_eq, entity_eq, edges_eq, _⟩ := merge_all_first_definitions _ well
  refine ⟨well, ?_, ?_, ?_, ?_⟩
  · rw [ids_eq]
    decide
  · rw [entity_eq]
    decide
  · rw [entity_eq]
    decide
  · rw [edges_eq]
    decide

end EntityGraph

end SyntaxGraph
