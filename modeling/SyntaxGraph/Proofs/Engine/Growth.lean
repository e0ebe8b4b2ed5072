import SyntaxGraph.Proofs.Engine.Writing
import SyntaxGraph.Proofs.Graph.Lookup

/-!
Runs only add to a graph. Entities and edges keep their positions, and no entity changes but a
dangling one, once, into what a single converter defines. This asks nothing of the graph that a run
starts with.
-/

set_option autoImplicit false

namespace SyntaxGraph

/-- The entity as it was, or what a definition makes of it where it dangles. -/
inductive Entity.Settles (defines : Definition → Prop) (file : String) (before : Entity) :
    Entity → Prop
  | unchanged : Settles defines file before before
  | defined (definition : Definition) (dangling : before.status = .dangling)
      (written : defines definition) (same : definition.id = before.id) :
      Settles defines file before
        { before with
          kind := definition.kind
          status := .resolved
          file := some file
          span := some definition.span }

namespace EntityGraph

/-- Entities stay where they are and settle, and edges stay; more of both may follow. -/
structure GrowsTo (defines : Definition → Prop) (file : String) (before after : EntityGraph) :
    Prop where
  entities_settle : ∀ (position : Nat) entity, before.entities[position]? = some entity →
    ∃ now, after.entities[position]? = some now ∧ entity.Settles defines file now
  edges_kept : before.edges <+: after.edges

variable {defines allowed : Definition → Prop} {file : String}
  {graph before between after : EntityGraph}

theorem GrowsTo.refl (graph : EntityGraph) : graph.GrowsTo defines file graph :=
  ⟨fun _ entity present => ⟨entity, present, .unchanged⟩, List.prefix_refl _⟩

theorem GrowsTo.trans (first : before.GrowsTo defines file between)
    (second : between.GrowsTo defines file after) : before.GrowsTo defines file after := by
  refine ⟨?_, first.edges_kept.trans second.edges_kept⟩
  intro position entity present
  obtain ⟨middle, middlePresent, settles⟩ := first.entities_settle position entity present
  obtain ⟨now, nowPresent, settlesAgain⟩ := second.entities_settle position middle middlePresent
  refine ⟨now, nowPresent, ?_⟩
  cases settles with
  | unchanged => exact settlesAgain
  | defined definition dangling written same =>
      cases settlesAgain with
      | unchanged => exact .defined definition dangling written same
      | defined _ again => cases again

theorem GrowsTo.weaken (grows : before.GrowsTo defines file after)
    (more : ∀ definition, defines definition → allowed definition) :
    before.GrowsTo allowed file after := by
  refine ⟨?_, grows.edges_kept⟩
  intro position entity present
  obtain ⟨now, nowPresent, settles⟩ := grows.entities_settle position entity present
  refine ⟨now, nowPresent, ?_⟩
  cases settles with
  | unchanged => exact .unchanged
  | defined definition dangling written same =>
      exact .defined definition dangling (more definition written) same

theorem grows_to_append (added : List Entity) (joined : List Edge) :
    graph.GrowsTo defines file ⟨graph.entities ++ added, graph.edges ++ joined⟩ := by
  refine ⟨?_, List.prefix_append _ _⟩
  intro position entity present
  have inside := (List.getElem?_eq_some_iff.1 present).1
  exact ⟨entity, by rw [List.getElem?_append_left inside, present], .unchanged⟩

theorem grows_to_update {id : String} {change : Entity → Entity}
    (settles : ∀ entity : Entity, entity.id = id → entity.Settles defines file (change entity)) :
    graph.GrowsTo defines file (graph.update id change) := by
  refine ⟨?_, List.prefix_refl _⟩
  intro position entity present
  have updated : (graph.update id change).entities[position]? =
      some (if entity.id = id then change entity else entity) := by
    rw [update, List.getElem?_map, present]
    rfl
  refine ⟨_, updated, ?_⟩
  by_cases same : entity.id = id
  · rw [if_pos same]
    exact settles entity same
  · rw [if_neg same]
    exact .unchanged

/-- A definition changes the dangling entities with its id, or is appended. -/
theorem grows_to_claim {definition : Definition} (written : defines definition) :
    graph.GrowsTo defines file
      (graph.claim definition.id definition.kind (some file) (some definition.span)) := by
  unfold claim
  by_cases present : graph.contains definition.id = true
  · rw [if_pos present]
    apply grows_to_update
    intro entity same
    unfold Entity.define
    by_cases dangles : entity.isDangling = true
    · rw [if_pos dangles]
      exact .defined definition (of_decide_eq_true dangles) written same.symm
    · rw [if_neg dangles]
      exact .unchanged
  · rw [if_neg present, addEntity,
      if_neg (show ¬graph.contains (Entity.resolved definition.id _ _ _).id = true from present)]
    have grown := @grows_to_append defines file graph
      [.resolved definition.id definition.kind (some file) (some definition.span)] []
    rwa [List.append_nil] at grown

theorem grows_to_ensure_entity (id : String) (kind : EntityKind) (context : Option String) :
    graph.GrowsTo defines file (graph.ensureEntity id kind context) := by
  unfold ensureEntity
  by_cases present : graph.contains id = true
  · rw [if_pos present]
    exact .refl graph
  · rw [if_neg present, addEntity,
      if_neg (show ¬graph.contains (Entity.dangling id _ _).id = true from present)]
    have grown := @grows_to_append defines file graph [.dangling id kind context] []
    rwa [List.append_nil] at grown

theorem grows_to_connect (edge : Edge) (sourceKind targetKind : EntityKind)
    (context : Option String) :
    graph.GrowsTo defines file (graph.connect edge sourceKind targetKind context) := by
  have made := (@grows_to_ensure_entity defines file graph edge.source sourceKind context).trans
    (grows_to_ensure_entity edge.target targetKind context)
  have joined := @grows_to_append defines file
    ((graph.ensureEntity edge.source sourceKind context).ensureEntity edge.target targetKind
      context) [] [edge]
  rw [List.append_nil] at joined
  exact made.trans joined

theorem GrowsTo.ids_prefix (grows : before.GrowsTo defines file after) :
    before.ids <+: after.ids := by
  rw [List.prefix_iff_getElem?]
  intro position inside
  have insideEntities : position < before.entities.length := by
    rwa [ids, List.length_map] at inside
  obtain ⟨now, nowPresent, settles⟩ := grows.entities_settle position _
    (List.getElem?_eq_getElem insideEntities)
  have sameId : now.id = before.entities[position].id := by
    cases settles <;> rfl
  simp only [ids, List.getElem?_map, nowPresent, Option.map_some, sameId, List.getElem_map]

end EntityGraph

/-- A converter defines an entity if it may run and everything that it needs resolves. -/
def Converter.Defines (site : MatchSite) (before : GraphBuilder) (converter : Converter)
    (definition : Definition) : Prop :=
  Predicate.allPass (site.inGraph before) converter.predicates = .ok true ∧
    ∃ name kind capture, converter.action = .node name kind capture ∧
      resolveDefinition name kind capture (site.inGraph before) = .ok definition

namespace Run

/-- One of the tasks defines an entity, at the builder that the tasks before it leave. -/
def Defines (tasks : List Task) (state : RunState) (definition : Definition) : Prop :=
  ∃ earlier site pattern converter index later between,
    tasks = earlier ++ .convert site pattern converter index :: later ∧
      loop earlier state = (.ok (), between) ∧
        converter.Defines site between.progress.builder definition

theorem defines_behind {task : Task} {rest : List Task} {state next : RunState}
    (stepped : step state task = .ok next) {definition : Definition}
    (defines : Defines rest next definition) : Defines (task :: rest) state definition := by
  obtain ⟨earlier, site, pattern, converter, index, later, between, split, done, defined⟩ := defines
  refine ⟨task :: earlier, site, pattern, converter, index, later, between, ?_, ?_, defined⟩
  · rw [split, List.cons_append]
  · rw [loop, stepped]
    exact done

theorem file_of_writes {site : MatchSite} {action : Action} {before after : GraphBuilder}
    (writes : action.Writes site before after) : after.file = before.file := by
  cases writes <;> rfl

theorem step_grows {task : Task} {state next : RunState} (rest : List Task)
    (stepped : step state task = .ok next) :
    next.progress.builder.file = state.progress.builder.file ∧
      state.progress.builder.graph.GrowsTo (Defines (task :: rest) state)
        state.progress.builder.file next.progress.builder.graph := by
  rcases builder_of_step stepped with
    same | ⟨site, pattern, converter, index, sameTask, gated, writes⟩
  · rw [same]
    exact ⟨rfl, .refl _⟩
  · refine ⟨file_of_writes writes, ?_⟩
    generalize acts : converter.action = action at writes
    generalize next.progress.builder = after at writes ⊢
    -- a definition is the only write that may change an entity
    cases writes with
    | define definition resolved =>
        apply EntityGraph.grows_to_claim
        exact ⟨[], site, pattern, converter, index, rest, state, by rw [sameTask]; rfl, rfl, gated,
          _, _, _, acts, resolved⟩
    | link ends place resolved placed => exact EntityGraph.grows_to_connect _ _ _ _
    | skipSelf => exact .refl _
    | validate => exact .refl _
    | recordImport texts => exact .refl _

theorem loop_grows (tasks : List Task) (state : RunState) :
    state.progress.builder.graph.GrowsTo (Defines tasks state) state.progress.builder.file
      (loop tasks state).2.progress.builder.graph := by
  induction tasks generalizing state with
  | nil => exact .refl _
  | cons task rest induction =>
      rw [loop]
      cases stepped : step state task with
      | error error => exact .refl _
      | ok next =>
          obtain ⟨sameFile, grows⟩ := step_grows rest stepped
          have later := (induction next).weaken fun _ => defines_behind stepped
          rw [sameFile] at later
          exact grows.trans later

end Run

/-- A run, whether or not it fails, keeps the ids at their positions and the edges, and adds behind
them. A resolved entity stays as it is. A dangling one does too, or it takes kind, file and span
from one definition of the run and keeps the rest. -/
theorem run_only_adds (patterns : PatternSet) (tree : Tree) (builder : GraphBuilder) :
    let input : SearchInput := ⟨patterns, tree, some builder⟩
    let before := builder.graph
    let after := (runEngine patterns tree builder).2.builder.graph
    before.ids <+: after.ids ∧
      (∀ (position : Nat) entity, before.entities[position]? = some entity →
        entity.status = .resolved → after.entities[position]? = some entity) ∧
      (∀ (position : Nat) entity, before.entities[position]? = some entity →
        entity.status = .dangling →
        after.entities[position]? = some entity ∨
          ∃ definition, Run.Defines input.tasks (input.initialState builder) definition ∧
            definition.id = entity.id ∧
            after.entities[position]? = some
              { entity with
                kind := definition.kind
                status := .resolved
                file := some builder.file
                span := some definition.span }) ∧
      before.edges <+: after.edges := by
  intro input before after
  have grows : before.GrowsTo (Run.Defines input.tasks (input.initialState builder)) builder.file
      after := by
    have looped := Run.loop_grows input.tasks (input.initialState builder)
    have ended : after =
        (Run.loop input.tasks (input.initialState builder)).2.progress.builder.graph := by
      show (runEngine patterns tree builder).2.builder.graph = _
      rw [run_engine_eq]
    rw [ended]
    exact looped
  refine ⟨grows.ids_prefix, ?_, ?_, grows.edges_kept⟩
  · intro position entity present resolved
    obtain ⟨now, nowPresent, settles⟩ := grows.entities_settle position entity present
    cases settles with
    | unchanged => exact nowPresent
    | defined definition dangling =>
        rw [resolved] at dangling
        cases dangling
  · intro position entity present dangling
    obtain ⟨now, nowPresent, settles⟩ := grows.entities_settle position entity present
    cases settles with
    | unchanged => exact Or.inl nowPresent
    | defined definition _ written same => exact Or.inr ⟨definition, written, same, nowPresent⟩

end SyntaxGraph
