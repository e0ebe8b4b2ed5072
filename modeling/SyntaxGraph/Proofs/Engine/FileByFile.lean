import SyntaxGraph.Proofs.Engine.Integrity
import SyntaxGraph.Proofs.Expression.Locality
import SyntaxGraph.Proofs.Graph.Contexts

/-!
Files one after another in one builder, and each in a builder of its own. Where no expression
follows edges of the graph, a run sees of its builder no more than what it wrote itself. The two
runs on a file therefore go in step, and what the shared graph gains is what the merge adds.
-/

set_option autoImplicit false

namespace SyntaxGraph

def PatternEntry.expressions (entry : PatternEntry) : List Expression :=
  entry.predicates.flatMap Predicate.expressions ++ entry.converters.flatMap Converter.expressions

/-- No expression of the patterns mentions a name that is looked up by following edges. -/
def PatternSet.StaysLocal (patterns : PatternSet) : Prop :=
  AllStayLocal (patterns.flatMap PatternEntry.expressions)

theorem PatternSet.StaysLocal.entry {patterns : PatternSet} (stays : patterns.StaysLocal)
    {entry : PatternEntry} (member : entry ∈ patterns) : AllStayLocal entry.expressions :=
  fun expression listed => stays expression (List.mem_flatMap.2 ⟨entry, member, listed⟩)

def Run.Task.expressions : Run.Task → List Expression
  | .enter => []
  | .convert _ _ converter _ => converter.expressions

namespace SearchInput

variable {left right : GraphBuilder} {patterns : PatternSet} {tree : Tree}

theorem accepted_at_agrees (same : left.SameIndex right) (stays : patterns.StaysLocal)
    (ancestors : List NodeId) (node : NodeId) :
    acceptedAt ⟨patterns, tree, some left⟩ ancestors node =
      acceptedAt ⟨patterns, tree, some right⟩ ancestors node := by
  -- which candidates there are is up to the tree; only their judgement looks at the builder
  have judged : ∀ candidate ∈ candidatesAt ⟨patterns, tree, some left⟩ node,
      judge ⟨patterns, tree, some left⟩ ancestors candidate.1 candidate.2 =
        judge ⟨patterns, tree, some right⟩ ancestors candidate.1 candidate.2 := by
    intro candidate member
    obtain ⟨⟨entry, index⟩, listed, found⟩ := List.mem_flatMap.1 member
    obtain ⟨captures, _, rfl⟩ := List.mem_map.1 found
    have gates := (all_stay_local_append.1 (stays.entry (List.fst_mem_of_mem_zipIdx listed))).1
    have passes := all_pass_agrees same ⟨tree, node, captures, ancestors⟩ entry.predicates gates
    rw [MatchSite.inGraph, MatchSite.inGraph] at passes
    simp only [judge, passes]
  have mapped := List.map_congr_left fun candidate member =>
    congrArg (candidate.1, ·) (judged candidate member)
  simp only [acceptedAt]
  rw [mapped]
  rfl

theorem search_agrees (same : left.SameIndex right) (stays : patterns.StaysLocal) :
    search ⟨patterns, tree, some left⟩ = search ⟨patterns, tree, some right⟩ :=
  search_congr rfl (accepted_at_agrees same stays)

theorem tasks_agree (same : left.SameIndex right) (stays : patterns.StaysLocal) :
    tasks ⟨patterns, tree, some left⟩ = tasks ⟨patterns, tree, some right⟩ := by
  rw [← forest_tasks_judged, ← forest_tasks_judged, search_agrees same stays]

theorem tasks_stay_local {input : SearchInput} (stays : input.patterns.StaysLocal) :
    ∀ task ∈ input.tasks, AllStayLocal task.expressions := by
  intro task member
  cases task with
  | enter => exact fun _ occurs => absurd occurs List.not_mem_nil
  | convert site pattern converter index =>
      obtain ⟨⟨above, found⟩, _, own⟩ := List.mem_flatMap.1 member
      obtain ⟨_, numbered⟩ := Run.converter_of_task own
      obtain ⟨entry, present, listed⟩ := Option.bind_eq_some_iff.1 numbered
      have whole := (all_stay_local_append.1 (stays.entry (List.mem_of_getElem? present))).2
      exact fun expression occurs =>
        whole expression (List.mem_flatMap.2 ⟨converter, List.mem_of_getElem? listed, occurs⟩)

end SearchInput

/-- A builder that goes on from a graph, and a fresh one in which the same has been done since. The
graph that the first one holds is the merge of the old graph and the fresh one, up to contexts. -/
structure Mirrors (base : EntityGraph) (shared fresh : GraphBuilder) : Prop where
  base_well_formed : base.WellFormed
  shared_sound : shared.Sound
  fresh_sound : fresh.Sound
  file_eq : shared.file = fresh.file
  associations_eq : shared.associations = fresh.associations
  graph_eq : shared.graph.withoutContexts =
    base.withoutContexts.merge fresh.graph.withoutContexts

namespace Mirrors

variable {base : EntityGraph} {shared fresh : GraphBuilder}

theorem same_index (mirrors : Mirrors base shared fresh) : shared.SameIndex fresh := by
  intro node
  have remembered : shared.idOf? node = fresh.idOf? node := by
    rw [GraphBuilder.idOf?, mirrors.associations_eq]
    rfl
  rw [mirrors.shared_sound.closed.id_of_node, mirrors.fresh_sound.closed.id_of_node, remembered]

theorem graph_eq_of_merge (mirrors : Mirrors base shared fresh) {added : EntityGraph}
    (well : added.WellFormed) {sharedAfter freshAfter : EntityGraph}
    (shared_eq : sharedAfter.withoutContexts = shared.graph.withoutContexts.merge added)
    (fresh_eq : freshAfter.withoutContexts = fresh.graph.withoutContexts.merge added) :
    sharedAfter.withoutContexts = base.withoutContexts.merge freshAfter.withoutContexts := by
  rw [shared_eq, fresh_eq, mirrors.graph_eq]
  exact EntityGraph.merge_assoc mirrors.base_well_formed.withoutContexts
    mirrors.fresh_sound.graph_sound.withoutContexts well

theorem define (mirrors : Mirrors base shared fresh) (definition : Definition) :
    Mirrors base (shared.define definition) (fresh.define definition) := by
  refine ⟨mirrors.base_well_formed, mirrors.shared_sound.define definition,
    mirrors.fresh_sound.define definition, mirrors.file_eq,
    congrArg ((definition.node, definition.id) :: ·) mirrors.associations_eq, ?_⟩
  have shared_eq : (shared.define definition).graph.withoutContexts =
      shared.graph.withoutContexts.merge
        (.ofDefinition definition.id definition.kind fresh.file definition.span) := by
    rw [← mirrors.file_eq]
    exact EntityGraph.without_contexts_claim mirrors.shared_sound.graph_sound.toWellFormed _ _ _ _
  exact mirrors.graph_eq_of_merge (EntityGraph.of_definition_well_formed _ _ _ _) shared_eq
    (EntityGraph.without_contexts_claim mirrors.fresh_sound.graph_sound.toWellFormed _ _ _ _)

theorem link (mirrors : Mirrors base shared fresh) (ends : Endpoints) (edge : EdgeType)
    (place : Span × Option String) :
    Mirrors base (shared.link ends edge place) (fresh.link ends edge place) := by
  refine ⟨mirrors.base_well_formed, mirrors.shared_sound.link ends edge place,
    mirrors.fresh_sound.link ends edge place, mirrors.file_eq, mirrors.associations_eq, ?_⟩
  have shared_eq : (shared.link ends edge place).graph.withoutContexts =
      shared.graph.withoutContexts.merge
        (.ofLink ⟨ends.source, ends.target, edge, fresh.file, place.1⟩ ends.sourceKind
          ends.targetKind) := by
    rw [← mirrors.file_eq]
    exact EntityGraph.without_contexts_connect mirrors.shared_sound.graph_sound.toWellFormed _ _ _ _
  exact mirrors.graph_eq_of_merge (EntityGraph.of_link_well_formed _ _ _) shared_eq
    (EntityGraph.without_contexts_connect mirrors.fresh_sound.graph_sound.toWellFormed _ _ _ _)

theorem recordImport (mirrors : Mirrors base shared fresh) (record : ImportRecord) :
    Mirrors base (shared.recordImport record) (fresh.recordImport record) :=
  ⟨mirrors.base_well_formed,
    ⟨mirrors.shared_sound.graph_sound, mirrors.shared_sound.associated_resolved⟩,
    ⟨mirrors.fresh_sound.graph_sound, mirrors.fresh_sound.associated_resolved⟩,
    mirrors.file_eq, mirrors.associations_eq, mirrors.graph_eq⟩

/-- A new file leaves nothing of the shared builder in view but its graph. -/
theorem beginFile (sound : shared.Sound) (file : String) :
    Mirrors shared.graph (shared.beginFile file) (GraphBuilder.empty.beginFile file) :=
  ⟨sound.graph_sound.toWellFormed, sound.beginFile file, GraphBuilder.empty_sound.beginFile file,
    rfl, rfl, rfl⟩

theorem kept_by_writes : KeptByWrites (Mirrors base) := ⟨define, link, recordImport⟩

theorem sees_alike {action : Action} (stays : AllStayLocal action.expressions) (site : MatchSite)
    (mirrors : Mirrors base shared fresh) : action.SeesAlike site shared fresh := by
  have same := mirrors.same_index
  cases action with
  | node name kind capture =>
      exact .node (definition_agrees same site name kind capture stays)
  | connection source target edge sourceKind targetKind position =>
      exact .connection (endpoints_agree same site source target sourceKind targetKind stays)
        (place_agrees same site position)
  | validateIdentifier identifier =>
      exact .validateIdentifier
        (resolve_agrees same site identifier (stays _ (List.mem_singleton_self _)))
  | recordImport fields => exact .recordImport (fields_agree same site fields.entries stays)

theorem converter_effect_alike {converter : Converter} (stays : AllStayLocal converter.expressions)
    (site : MatchSite) {left right : Progress} (mirrors : Mirrors base left.builder right.builder) :
    Alike (fun (left right : Bool × Progress) =>
        left.1 = right.1 ∧ Mirrors base left.2.builder right.2.builder)
      (converter.effect site left) (converter.effect site right) := by
  obtain ⟨gates, acts⟩ := all_stay_local_append.1 stays
  exact Converter.effect_alike (all_pass_agrees mirrors.same_index site converter.predicates gates)
    (sees_alike acts site mirrors) kept_by_writes mirrors

end Mirrors

namespace Run

/-- States of two runs that have counted the same and whose builders mirror each other. -/
structure Abreast (base : EntityGraph) (left right : RunState) : Prop where
  stats_eq : left.stats = right.stats
  builders_mirror : Mirrors base left.progress.builder right.progress.builder

variable {base : EntityGraph} {left right : RunState}

theorem step_abreast {task : Task} (stays : AllStayLocal task.expressions)
    (abreast : Abreast base left right) :
    Alike (Abreast base) (step left task) (step right task) := by
  obtain ⟨stats_eq, mirrors⟩ := abreast
  cases task with
  | enter => exact ⟨by rw [stats_eq], mirrors⟩
  | convert site pattern converter index =>
      have effects := mirrors.converter_effect_alike stays site
      rw [step, step, Converter.run_execute, Converter.run_execute]
      rcases effects.both_or_neither with
        ⟨⟨passed, after⟩, ⟨_, alsoAfter⟩, ended, alsoEnded, rfl, mirrorsAfter⟩ |
          ⟨cause, failed, alsoFailed⟩
      · rw [ended, alsoEnded]
        cases passed with
        | true => exact ⟨by rw [stats_eq], mirrorsAfter⟩
        | false => exact ⟨by rw [stats_eq], mirrorsAfter⟩
      · rw [failed, alsoFailed]
        -- both pass over the same failure, or both stop at it
        cases cause with
        | missingCapture | unmappedNode =>
            exact ⟨by rw [passOver, passOver, stats_eq], mirrors⟩
        | _ => rfl

theorem loop_abreast (tasks : List Task) (stays : ∀ task ∈ tasks, AllStayLocal task.expressions)
    (abreast : Abreast base left right) :
    (loop tasks left).1 = (loop tasks right).1 ∧
      Abreast base (loop tasks left).2 (loop tasks right).2 := by
  induction tasks generalizing left right with
  | nil => exact ⟨rfl, abreast⟩
  | cons task rest induction =>
      obtain ⟨first, later⟩ := List.forall_mem_cons.1 stays
      rw [loop, loop]
      rcases (step_abreast first abreast).both_or_neither with
        ⟨next, alsoNext, stepped, alsoStepped, abreastAfter⟩ | ⟨error, failed, alsoFailed⟩
      · rw [stepped, alsoStepped]
        exact induction later abreastAfter
      · rw [failed, alsoFailed]
        exact ⟨rfl, abreast⟩

end Run

def runFile (patterns : PatternSet) (builder : GraphBuilder) (file : String × Tree) :
    Except EngineError Unit × GraphBuilder :=
  let ended := runEngine patterns file.2 (builder.beginFile file.1)
  (ended.1.map fun _ => (), ended.2.builder)

variable {patterns : PatternSet} {builder : GraphBuilder}

theorem run_file_eq (file : String × Tree) :
    let opened := builder.beginFile file.1
    let input : SearchInput := ⟨patterns, file.2, some opened⟩
    let ended := Run.loop input.tasks (input.initialState opened)
    runFile patterns builder file = (ended.1, ended.2.progress.builder) := by
  intro opened input ended
  show (((runEngine patterns file.2 opened).1.map fun _ => ()),
    (runEngine patterns file.2 opened).2.builder) = _
  rw [run_engine_eq]
  show (Except.map _ (Except.map _ ended.1), _) = _
  cases ended.1 <;> rfl

theorem run_file_mirrors (stays : patterns.StaysLocal) (sound : builder.Sound)
    (file : String × Tree) :
    (runFile patterns builder file).1 = (runFile patterns .empty file).1 ∧
      Mirrors builder.graph (runFile patterns builder file).2 (runFile patterns .empty file).2 := by
  have mirrors := Mirrors.beginFile sound file.1
  let shared : SearchInput := ⟨patterns, file.2, some (builder.beginFile file.1)⟩
  let fresh : SearchInput := ⟨patterns, file.2, some (GraphBuilder.empty.beginFile file.1)⟩
  have abreast : Run.Abreast builder.graph (shared.initialState (builder.beginFile file.1))
      (fresh.initialState (GraphBuilder.empty.beginFile file.1)) := ⟨rfl, mirrors⟩
  obtain ⟨sameEnd, after⟩ :=
    Run.loop_abreast shared.tasks (SearchInput.tasks_stay_local stays) abreast
  have sameTasks : shared.tasks = fresh.tasks :=
    SearchInput.tasks_agree mirrors.same_index stays
  rw [run_file_eq, run_file_eq]
  show (Run.loop shared.tasks _).1 = (Run.loop fresh.tasks _).1 ∧
    Mirrors _ (Run.loop shared.tasks _).2.progress.builder
      (Run.loop fresh.tasks _).2.progress.builder
  rw [← sameTasks]
  exact ⟨sameEnd, after.builders_mirror⟩

/-- All files one after another in a new builder, broken off runs included. -/
def runFiles (patterns : PatternSet) (files : List (String × Tree)) : GraphBuilder :=
  files.foldl (fun builder file => (runFile patterns builder file).2) .empty

/-- Every file in a new builder of its own. -/
def runApart (patterns : PatternSet) (files : List (String × Tree)) : List EntityGraph :=
  files.map fun file => (runFile patterns .empty file).2.graph

theorem run_file_sound (sound : builder.Sound) (file : String × Tree) :
    (runFile patterns builder file).2.Sound :=
  (sound.beginFile file.1).run patterns file.2

theorem run_files_sound (files : List (String × Tree)) : (runFiles patterns files).Sound := by
  induction files using List.reverseRec with
  | nil => exact GraphBuilder.empty_sound
  | append_singleton earlier last induction =>
      rw [runFiles, List.foldl_append]
      exact run_file_sound induction last

theorem run_apart_well_formed (files : List (String × Tree)) :
    ∀ graph ∈ runApart patterns files, graph.WellFormed := by
  intro graph member
  obtain ⟨file, _, rfl⟩ := List.mem_map.1 member
  exact (run_file_sound GraphBuilder.empty_sound file).graph_sound.toWellFormed

theorem run_files_graph (stays : patterns.StaysLocal) (files : List (String × Tree)) :
    (runFiles patterns files).graph.withoutContexts =
      (EntityGraph.mergeAll (runApart patterns files)).withoutContexts := by
  -- both sides fold from the left, so the last file is the one to split off
  induction files using List.reverseRec with
  | nil => rfl
  | append_singleton earlier last induction =>
      obtain ⟨_, mirrors⟩ := run_file_mirrors stays (run_files_sound earlier) last
      have shared : (runFiles patterns (earlier ++ [last])).graph =
          (runFile patterns (runFiles patterns earlier) last).2.graph := by
        rw [runFiles, List.foldl_append]
        rfl
      have apart : EntityGraph.mergeAll (runApart patterns (earlier ++ [last])) =
          (EntityGraph.mergeAll (runApart patterns earlier)).merge
            (runFile patterns .empty last).2.graph := by
        rw [runApart, List.map_append, EntityGraph.mergeAll, List.foldl_append]
        rfl
      rw [shared, apart, mirrors.graph_eq, induction]
      exact (EntityGraph.without_contexts_merge
        (EntityGraph.merge_all_well_formed (run_apart_well_formed earlier))
        mirrors.fresh_sound.graph_sound.toWellFormed).symm

/-- Where no expression follows edges, it makes no difference whether files share a builder. Every
run ends as it would in a new builder, and the shared graph has the entities of the merged graphs,
in their order and the same in everything but their contexts, and the same edges. This asks for no
success: where a run fails, both graphs hold what it has done. -/
theorem shared_builder_builds_merge (patterns : PatternSet) (stays : patterns.StaysLocal)
    (files : List (String × Tree)) :
    let shared := (runFiles patterns files).graph
    let merged := EntityGraph.mergeAll (runApart patterns files)
    shared.entities.map Entity.withoutContext = merged.entities.map Entity.withoutContext ∧
      shared.edges = merged.edges ∧
      ∀ earlier file later, files = earlier ++ file :: later →
        (runFile patterns (runFiles patterns earlier) file).1 =
          (runFile patterns .empty file).1 := by
  intro shared merged
  have same : shared.withoutContexts = merged.withoutContexts := run_files_graph stays files
  refine ⟨congrArg EntityGraph.entities same, ?_, ?_⟩
  · rw [← EntityGraph.edges_without_contexts, same, EntityGraph.edges_without_contexts]
  · intro earlier file _ _
    exact (run_file_mirrors stays (run_files_sound earlier) file).1

def callPatterns : PatternSet :=
  let capture (name : String) : Expression := .mk name [.reference (.mk name false [])]
  let function : Expression := .mk "function" [.literal "function"]
  [⟨.node "def" ["name"] [] [] false, [], [⟨.node (capture "name") function none, []⟩]⟩,
    ⟨.node "call" ["callee"] [] [] false, [],
      [⟨.connection (capture "parent") (capture "callee") .calls none none none, []⟩]⟩]

def callFiles : List (String × Tree) :=
  let span : Span := ⟨0, 0, 1, 0⟩
  [("a.py", ⟨#[⟨0, "def", "a", span, none, [1]⟩, ⟨1, "call", "b", span, some 0, []⟩], some 0⟩),
    ("b.py", ⟨#[⟨0, "def", "b", span, none, []⟩], some 0⟩)]

theorem called_function_keeps_context :
    callPatterns.StaysLocal ∧
      (EntityGraph.mergeAll (runApart callPatterns callFiles)).entities =
        [.resolved "a" .function (some "a.py") (some ⟨0, 0, 1, 0⟩),
          .resolved "b" .function (some "b.py") (some ⟨0, 0, 1, 0⟩)] ∧
      (runFiles callPatterns callFiles).graph.entities.map (·.context) = [none, some "a"] ∧
      (runFiles callPatterns callFiles).graph.edges =
        [⟨"a", "b", .calls, "a.py", ⟨0, 0, 1, 0⟩⟩] ∧
      (runFile callPatterns (runFiles callPatterns (callFiles.take 1)) callFiles[1]).1 =
        .ok () := by
  have stays : callPatterns.StaysLocal := by
    unfold PatternSet.StaysLocal AllStayLocal StayLocal
    decide
  obtain ⟨_, edges_eq, ends⟩ := shared_builder_builds_merge callPatterns stays callFiles
  refine ⟨stays, ?_, ?_, ?_, ?_⟩
  · decide +kernel
  · decide +kernel
  · rw [edges_eq]
    decide +kernel
  · rw [ends _ _ [] rfl]
    decide +kernel

end SyntaxGraph
