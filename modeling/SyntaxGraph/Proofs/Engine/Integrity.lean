import SyntaxGraph.Proofs.Engine.Writing
import SyntaxGraph.Proofs.Graph.Sound

/-!
Graphs as they come about: by any number of runs in one builder, ended or broken off, on any files,
and by merging what several builders hold. All of them are sound.
-/

set_option autoImplicit false

namespace SyntaxGraph

inductive BuildStep where
  | beginFile (file : String)
  | run (patterns : PatternSet) (tree : Tree)

def BuildStep.leaves (builder : GraphBuilder) : BuildStep → GraphBuilder
  | .beginFile file => builder.beginFile file
  | .run patterns tree => (runEngine patterns tree builder).2.builder

namespace GraphBuilder

def ofHistory (history : List BuildStep) : GraphBuilder := history.foldl BuildStep.leaves empty

variable {builder : GraphBuilder}

theorem Sound.define (sound : builder.Sound) (definition : Definition) :
    (builder.define definition).Sound := by
  refine ⟨sound.graph_sound.claim definition.id definition.kind builder.file definition.span, ?_⟩
  intro node id member
  rcases List.mem_cons.1 member with new | old
  · cases new
    have claimed := @EntityGraph.entity_claim builder.graph definition.id definition.kind
      (some builder.file) (some definition.span) definition.id
    rw [if_pos rfl] at claimed
    refine ⟨_, claimed, ?_⟩
    cases builder.graph.entity? definition.id with
    | none => rfl
    | some present => exact present.status_define definition.kind _ _
  · obtain ⟨entity, found, resolved⟩ := sound.associated_resolved node id old
    exact ⟨entity, EntityGraph.resolved_claim found resolved _ _ _ _, resolved⟩

theorem Sound.link (sound : builder.Sound) (ends : Endpoints) (edge : EdgeType)
    (place : Span × Option String) : (builder.link ends edge place).Sound := by
  refine ⟨sound.graph_sound.connect _ _ _ _, ?_⟩
  intro node id member
  obtain ⟨entity, found, resolved⟩ := sound.associated_resolved node id member
  have kept := EntityGraph.entity_of_ensure_entity
    (EntityGraph.entity_of_ensure_entity found ends.source ends.sourceKind place.2)
    ends.target ends.targetKind place.2
  exact ⟨entity, kept, resolved⟩

theorem Sound.write {site : MatchSite} {action : Action} {before after : GraphBuilder}
    (writes : action.Writes site before after) (sound : before.Sound) : after.Sound := by
  cases writes with
  | define definition resolved => exact sound.define definition
  | link ends place resolved placed => exact sound.link ends _ place
  | skipSelf => exact sound
  | validate => exact sound
  | recordImport texts => exact ⟨sound.graph_sound, sound.associated_resolved⟩

theorem Sound.run (sound : builder.Sound) (patterns : PatternSet) (tree : Tree) :
    (runEngine patterns tree builder).2.builder.Sound :=
  run_engine_keeps (fun _ _ _ _ writes before => Sound.write writes before) patterns tree sound

theorem of_history_sound (history : List BuildStep) : (ofHistory history).Sound := by
  induction history using List.reverseRec with
  | nil => exact empty_sound
  | append_singleton earlier last induction =>
      rw [ofHistory, List.foldl_append]
      cases last with
      | beginFile file => exact induction.beginFile file
      | run patterns tree => exact induction.run patterns tree

end GraphBuilder

theorem EntityGraph.Grouping.sound (grouping : Grouping)
    (members : ∀ graph ∈ grouping.members, graph.Sound) : grouping.merged.Sound := by
  induction grouping with
  | single graph => exact members graph (List.mem_singleton_self graph)
  | join left right leftInduction rightInduction =>
      apply Sound.merge
      · exact leftInduction fun graph member => members graph (List.mem_append_left _ member)
      · exact rightInduction fun graph member => members graph (List.mem_append_right _ member)

/-- After any history a builder's graph is sound: ids are distinct, edges have their ends, resolved
entities are placed, and dangling ones are ends of edges without a place. A look-up finds the entity
with the id, and a syntax node that something was defined for has a resolved entity. Graphs merged
from such graphs, in any way, are sound as well. -/
theorem histories_build_sound_graphs :
    (∀ history,
      let builder := GraphBuilder.ofHistory history
      builder.graph.Sound ∧
        (∀ id entity, builder.graph.entity? id = some entity ↔
          entity ∈ builder.graph.entities ∧ entity.id = id) ∧
        ∀ node id, builder.idOf? node = some id →
          ∃ entity, builder.entityOf? node = some entity ∧ entity.id = id ∧
            entity.status = .resolved) ∧
      ∀ grouping : EntityGraph.Grouping,
        (∀ graph ∈ grouping.members, ∃ history, graph = (GraphBuilder.ofHistory history).graph) →
        grouping.merged.Sound ∧
          ∀ id entity, grouping.merged.entity? id = some entity ↔
            entity ∈ grouping.merged.entities ∧ entity.id = id := by
  have looks : ∀ graph : EntityGraph, graph.Sound → ∀ id entity,
      graph.entity? id = some entity ↔ entity ∈ graph.entities ∧ entity.id = id := by
    intro graph sound id entity
    constructor
    · intro found
      exact ⟨EntityGraph.mem_of_entity found, EntityGraph.id_of_entity found⟩
    · rintro ⟨member, same⟩
      rw [← same]
      exact EntityGraph.entity_of_mem sound.ids_distinct member
  constructor
  · intro history builder
    have sound : builder.Sound := GraphBuilder.of_history_sound history
    exact ⟨sound.graph_sound, looks _ sound.graph_sound,
      fun node id remembered => sound.entity_of_node remembered⟩
  · intro grouping members
    have sound : grouping.merged.Sound := by
      apply grouping.sound
      intro graph member
      obtain ⟨history, same⟩ := members graph member
      rw [same]
      exact (GraphBuilder.of_history_sound history).graph_sound
    exact ⟨sound, looks _ sound⟩

end SyntaxGraph
