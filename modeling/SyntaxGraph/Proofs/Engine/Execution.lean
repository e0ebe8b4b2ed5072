import SyntaxGraph.Engine.Execute
import SyntaxGraph.Proofs.Converter.Effect
import SyntaxGraph.Proofs.Engine.Search
import SyntaxGraph.Proofs.Matching.Bindings

/-!
Execution as one loop. The walk over a forest, with its own stack of start nodes, does the tasks of
the flattened forest from left to right; on the forest of a search that stack is at every match the
list under which the search judged it.
-/

set_option autoImplicit false

namespace SyntaxGraph

namespace Run

/-- What a run does one after another. -/
inductive Task where
  | enter
  | convert (site : MatchSite) (pattern : Nat) (converter : Converter) (index : Nat)

def passOver (state : RunState) (pattern index : Nat) (cause : ResolveError) : RunState :=
  ⟨state.progress.observe (.converterSkipped pattern index cause),
    { state.stats with skipped := state.stats.skipped + 1 }⟩

/-- One task. An absent capture and an unmapped node are passed over, every other error stops; in
neither case is there any other change. -/
def step (state : RunState) : Task → Except EngineError RunState
  | .enter => .ok { state with stats := { state.stats with matched := state.stats.matched + 1 } }
  | .convert site pattern converter index =>
      match (converter.execute site).run.run state.progress with
      | (.ok true, after) =>
          .ok ⟨after, { state.stats with executed := state.stats.executed + 1 }⟩
      | (.ok false, after) =>
          .ok ⟨after, { state.stats with skipped := state.stats.skipped + 1 }⟩
      | (.error (.missingCapture name), _) =>
          .ok (passOver state pattern index (.missingCapture name))
      | (.error (.unmappedNode name), _) => .ok (passOver state pattern index (.unmappedNode name))
      | (.error cause, _) => .error ⟨pattern, index, cause⟩

def loop : List Task → RunState → Except EngineError Unit × RunState
  | [], state => (.ok (), state)
  | task :: rest, state =>
      match step state task with
      | .ok next => loop rest next
      | .error error => (.error error, state)

/-- The tasks of a match: it is entered, and its converters follow in their order. -/
def tasksOf (patterns : PatternSet) (tree : Tree) (ancestors : List NodeId) (found : Match) :
    List Task :=
  .enter :: (convertersOf patterns found.pattern).map fun (converter, index) =>
    .convert ⟨tree, found.start, found.captures, ancestors⟩ found.pattern converter index

theorem converter_of_task {patterns : PatternSet} {tree : Tree} {ancestors : List NodeId}
    {found : Match} {site : MatchSite} {pattern index : Nat} {converter : Converter}
    (member : .convert site pattern converter index ∈ tasksOf patterns tree ancestors found) :
    site = ⟨tree, found.start, found.captures, ancestors⟩ ∧
      (patterns[pattern]?.bind fun entry => entry.converters[index]?) = some converter := by
  rcases List.mem_cons.1 member with same | listed
  · cases same
  · obtain ⟨⟨other, position⟩, indexed, same⟩ := List.mem_map.1 listed
    cases same
    have numbered := List.mk_mem_zipIdx_iff_getElem?.1 indexed
    refine ⟨rfl, ?_⟩
    cases entry : patterns[found.pattern]? with
    | none => simp [entry] at numbered
    | some entry => simpa [entry] using numbered

mutual

/-- The tasks on the way through a node of the forest, each under the start nodes above. -/
def nodeTasks (patterns : PatternSet) (tree : Tree) (ancestors : List NodeId) :
    MatchNode → List Task
  | .mk found children =>
      tasksOf patterns tree ancestors found ++
        forestTasks patterns tree (ancestors ++ [found.start]) children

def forestTasks (patterns : PatternSet) (tree : Tree) (ancestors : List NodeId) :
    List MatchNode → List Task
  | [] => []
  | node :: rest =>
      nodeTasks patterns tree ancestors node ++ forestTasks patterns tree ancestors rest

end

def Does (action : Run Unit) (tasks : List Task) : Prop :=
  ∀ state, action.run.run state = loop tasks state

theorem loop_append (first second : List Task) (state : RunState) :
    loop (first ++ second) state =
      match loop first state with
      | (.ok (), next) => loop second next
      | (.error error, stopped) => (.error error, stopped) := by
  induction first generalizing state with
  | nil => rfl
  | cons task rest induction =>
      rw [List.cons_append, loop, loop]
      cases step state task with
      | ok next => exact induction next
      | error error => rfl

theorem does_nothing : Does (pure ()) [] := fun _ => rfl

theorem Does.andThen {first second : Run Unit} {earlier later : List Task}
    (does : Does first earlier) (continues : Does second later) :
    Does (first >>= fun _ => second) (earlier ++ later) := by
  intro state
  rw [run_bind, loop_append, does state]
  cases loop earlier state with
  | mk outcome next =>
      cases outcome with
      | ok result => exact continues next
      | error error => rfl

theorem does_count_match : Does (count fun stats => { stats with matched := stats.matched + 1 })
    [.enter] := fun _ => rfl

/-- A converter that fails has not touched the progress, so the loop may drop what it left. -/
theorem does_convert (site : MatchSite) (pattern : Nat) (converter : Converter) (index : Nat) :
    Does (convert site pattern (converter, index)) [.convert site pattern converter index] := by
  intro state
  have attempted : (attempt (converter.execute site)).run.run state =
      (.ok ((converter.execute site).run.run state.progress).1,
        { state with progress := ((converter.execute site).run.run state.progress).2 }) := rfl
  rw [convert, run_bind, attempted, loop, step, Converter.run_execute]
  cases converter.effect site state.progress with
  | ok result =>
      obtain ⟨passed, after⟩ := result
      cases passed with
      | true => rfl
      | false => rfl
  | error cause => cases cause <;> rfl

theorem does_convert_all (site : MatchSite) (pattern : Nat) (converters : List (Converter × Nat)) :
    Does (convertAll site pattern converters)
      (converters.map fun (converter, index) => .convert site pattern converter index) := by
  induction converters with
  | nil => exact does_nothing
  | cons converter rest induction => exact (does_convert site pattern _ _).andThen induction

theorem does_execute_match (patterns : PatternSet) (tree : Tree) (ancestors : List NodeId)
    (found : Match) :
    Does (executeMatch patterns tree ancestors found) (tasksOf patterns tree ancestors found) :=
  does_count_match.andThen (does_convert_all _ _ _)

mutual

theorem does_execute_node (patterns : PatternSet) (tree : Tree) (ancestors : List NodeId)
    (node : MatchNode) :
    Does (executeNode patterns tree ancestors node) (nodeTasks patterns tree ancestors node) := by
  cases node with
  | mk found children =>
      rw [executeNode, nodeTasks]
      exact (does_execute_match patterns tree ancestors found).andThen
        (does_execute_forest patterns tree (ancestors ++ [found.start]) children)

theorem does_execute_forest (patterns : PatternSet) (tree : Tree) (ancestors : List NodeId)
    (forest : List MatchNode) :
    Does (executeForest patterns tree ancestors forest)
      (forestTasks patterns tree ancestors forest) := by
  cases forest with
  | nil =>
      rw [executeForest, forestTasks]
      exact does_nothing
  | cons node rest =>
      rw [executeForest, forestTasks]
      exact (does_execute_node patterns tree ancestors node).andThen
        (does_execute_forest patterns tree ancestors rest)

end

theorem forest_tasks_append (patterns : PatternSet) (tree : Tree) (ancestors : List NodeId)
    (first second : List MatchNode) :
    forestTasks patterns tree ancestors (first ++ second) =
      forestTasks patterns tree ancestors first ++ forestTasks patterns tree ancestors second := by
  induction first with
  | nil => rfl
  | cons node rest induction =>
      rw [List.cons_append, forestTasks, forestTasks, induction, List.append_assoc]

theorem forest_tasks_flat_map (patterns : PatternSet) (tree : Tree) (ancestors : List NodeId)
    (siblings : List NodeId) (grown : NodeId → List MatchNode) :
    forestTasks patterns tree ancestors (siblings.flatMap grown) =
      siblings.flatMap fun child => forestTasks patterns tree ancestors (grown child) := by
  induction siblings with
  | nil => rfl
  | cons child rest induction =>
      rw [List.flatMap_cons, List.flatMap_cons, forest_tasks_append, induction]

theorem forest_tasks_hang_under_last (patterns : PatternSet) (tree : Tree)
    (ancestors : List NodeId) (below : List MatchNode) {node : NodeId} (here : List Match)
    (nonempty : here ≠ []) (started : ∀ found ∈ here, found.start = node) :
    forestTasks patterns tree ancestors (MatchNode.hangUnderLast below here) =
      here.flatMap (tasksOf patterns tree ancestors) ++
        forestTasks patterns tree (ancestors ++ [node]) below := by
  induction here with
  | nil => exact absurd rfl nonempty
  | cons found rest induction =>
      cases rest with
      | nil => simp [MatchNode.hangUnderLast, forestTasks, nodeTasks, started found]
      | cons next rest =>
          have later := induction (by simp) fun other member => started other (by simp [member])
          have hung : MatchNode.hangUnderLast below (found :: next :: rest) =
              .mk found [] :: MatchNode.hangUnderLast below (next :: rest) := rfl
          rw [hung, forestTasks, nodeTasks, later, forestTasks, List.append_nil,
            ← List.append_assoc, ← List.flatMap_cons]

/-- Where the loop stops, a converter failed for good, all tasks before it were done, and what they
left is left. -/
theorem loop_stops (tasks : List Task) (state : RunState) {error : EngineError} {final : RunState}
    (stopped : loop tasks state = (.error error, final)) :
    ∃ earlier site converter later,
      tasks = earlier ++ .convert site error.pattern converter error.converter :: later ∧
        loop earlier state = (.ok (), final) ∧
          converter.effect site final.progress = .error error.cause ∧
            (error.cause.isAbsence = true → error.cause.isMissingAncestor = true) := by
  induction tasks generalizing state with
  | nil => cases stopped
  | cons task rest induction =>
      rw [loop] at stopped
      cases stepped : step state task with
      | ok next =>
          rw [stepped] at stopped
          obtain ⟨earlier, site, converter, later, split, done, fails⟩ := induction next stopped
          refine ⟨task :: earlier, site, converter, later, by rw [split, List.cons_append], ?_, fails⟩
          rw [loop, stepped]
          exact done
      | error raised =>
          rw [stepped] at stopped
          cases stopped
          cases task with
          | enter => cases stepped
          | convert site pattern converter index =>
              rw [step, Converter.run_execute] at stepped
              cases failed : converter.effect site final.progress with
              | ok result =>
                  obtain ⟨passed, after⟩ := result
                  rw [failed] at stepped
                  cases passed <;> cases stepped
              | error cause =>
                  rw [failed] at stepped
                  cases cause <;> cases stepped <;>
                    exact ⟨[], site, converter, rest, rfl, rfl, failed,
                      by simp [ResolveError.isAbsence, ResolveError.isMissingAncestor]⟩

end Run

namespace SearchInput

variable {input : SearchInput}

/-- The accepted matches of a search, each with the list of ancestors that it was judged under. -/
def judgedFrom (input : SearchInput) : Nat → List NodeId → NodeId → List (List NodeId × Match)
  | 0, _, _ => []
  | levels + 1, ancestors, node =>
      let here := (input.acceptedAt ancestors node).1
      let inner := if here.isEmpty then ancestors else ancestors ++ [node]
      here.map (ancestors, ·) ++
        (input.tree.children node).flatMap (input.judgedFrom levels inner)

def judged (input : SearchInput) : List (List NodeId × Match) :=
  match input.tree.root with
  | none => []
  | some root => input.judgedFrom input.tree.size [] root

def tasksUnder (input : SearchInput) (entry : List NodeId × Match) : List Run.Task :=
  Run.tasksOf input.patterns input.tree entry.1 entry.2

def tasks (input : SearchInput) : List Run.Task := input.judged.flatMap input.tasksUnder

theorem flatten_judged_from (levels : Nat) (ancestors : List NodeId) (node : NodeId) :
    MatchNode.flattenAll (input.searchFrom levels ancestors node).1 =
      (input.judgedFrom levels ancestors node).map (·.2) := by
  induction levels generalizing ancestors node with
  | zero => rfl
  | succ levels induction =>
      have below : ∀ inner, MatchNode.flattenAll
            ((input.tree.children node).flatMap fun child =>
              (input.searchFrom levels inner child).1) =
          ((input.tree.children node).flatMap (input.judgedFrom levels inner)).map (·.2) := by
        intro inner
        rw [MatchNode.flatten_flat_map, List.map_flatMap]
        apply List.flatMap_congr
        intro child _
        exact induction inner child
      have here : ((input.acceptedAt ancestors node).1.map (ancestors, ·)).map (·.2) =
          (input.acceptedAt ancestors node).1 := by
        rw [List.map_map]
        exact List.map_id _
      rw [searchFrom, judgedFrom]
      dsimp only
      rw [List.map_append, List.flatMap_map, here]
      by_cases empty : (input.acceptedAt ancestors node).1.isEmpty = true
      · rw [if_pos empty, if_pos empty, below, List.isEmpty_iff.1 empty, List.nil_append]
      · rw [if_neg empty, if_neg empty, MatchNode.flatten_hang_under_last _ _ (by simpa using empty),
          below]

/-- The walk of the execution and the search extend their stacks alike. -/
theorem forest_tasks_judged_from (levels : Nat) (ancestors : List NodeId) (node : NodeId) :
    Run.forestTasks input.patterns input.tree ancestors (input.searchFrom levels ancestors node).1 =
      (input.judgedFrom levels ancestors node).flatMap input.tasksUnder := by
  induction levels generalizing ancestors node with
  | zero => rfl
  | succ levels induction =>
      have below : ∀ inner, Run.forestTasks input.patterns input.tree inner
            ((input.tree.children node).flatMap fun child =>
              (input.searchFrom levels inner child).1) =
          ((input.tree.children node).flatMap (input.judgedFrom levels inner)).flatMap
            input.tasksUnder := by
        intro inner
        rw [Run.forest_tasks_flat_map, List.flatMap_assoc]
        apply List.flatMap_congr
        intro child _
        exact induction inner child
      have here : (input.acceptedAt ancestors node).1.flatMap
            (Run.tasksOf input.patterns input.tree ancestors) =
          ((input.acceptedAt ancestors node).1.map (ancestors, ·)).flatMap input.tasksUnder := by
        rw [List.flatMap_map]
        rfl
      rw [searchFrom, judgedFrom]
      dsimp only
      rw [List.flatMap_append, List.flatMap_map, ← here]
      by_cases empty : (input.acceptedAt ancestors node).1.isEmpty = true
      · rw [if_pos empty, if_pos empty, below, List.isEmpty_iff.1 empty, List.flatMap_nil,
          List.nil_append]
      · have started : ∀ found ∈ (input.acceptedAt ancestors node).1, found.start = node := by
          rw [accepted_at_matches]
          exact fun found member => input.start_of_accepted member
        rw [if_neg empty, if_neg empty, Run.forest_tasks_hang_under_last _ _ _ _ _
          (by simpa using empty) started, below]

theorem mem_judged_from {levels : Nat} {ancestors above : List NodeId} {node : NodeId}
    {found : Match} (member : (above, found) ∈ input.judgedFrom levels ancestors node) :
    found ∈ (input.acceptedAt above found.start).1 ∧
      Relation.ReflTransGen input.tree.IsChild node found.start := by
  induction levels generalizing ancestors node with
  | zero => cases member
  | succ levels induction =>
      rw [judgedFrom] at member
      rcases List.mem_append.1 member with here | below
      · obtain ⟨other, accepted, same⟩ := List.mem_map.1 here
        cases same
        have started : found.start = node := by
          rw [accepted_at_matches] at accepted
          exact input.start_of_accepted accepted
        rw [started]
        exact ⟨accepted, Relation.ReflTransGen.refl⟩
      · obtain ⟨child, listed, deeper⟩ := List.mem_flatMap.1 below
        obtain ⟨accepted, reaches⟩ := induction deeper
        exact ⟨accepted, Relation.ReflTransGen.head listed reaches⟩

theorem judged_from_enclosing (consistent : input.tree.Consistent) (acyclic : input.tree.Acyclic)
    {root node : NodeId} {above : List NodeId} (rooted : input.tree.root = some root)
    (descent : input.tree.Descent root above node) (levels : Nat) :
    ∀ entry ∈ input.judgedFrom levels (input.enclosing node) node,
      entry.1 = input.enclosing entry.2.start := by
  induction levels generalizing above node with
  | zero =>
      intro entry member
      cases member
  | succ levels induction =>
      intro entry member
      rw [judgedFrom, accepted_at_matches] at member
      rcases List.mem_append.1 member with here | below
      · obtain ⟨found, accepted, same⟩ := List.mem_map.1 here
        rw [← same, input.start_of_accepted accepted]
      · obtain ⟨child, listed, deeper⟩ := List.mem_flatMap.1 below
        have inner : input.enclosing child = _ :=
          enclosing_child consistent acyclic rooted descent listed
        rw [extend] at inner
        rw [← inner] at deeper
        exact induction (descent.step listed) entry deeper

theorem flatten_judged : MatchNode.flattenAll input.search.1 = input.judged.map (·.2) := by
  cases rooted : input.tree.root with
  | none => simp [search, judged, rooted, MatchNode.flattenAll]
  | some root => simp only [search, judged, rooted, flatten_judged_from]

theorem forest_tasks_judged :
    Run.forestTasks input.patterns input.tree [] input.search.1 = input.tasks := by
  cases rooted : input.tree.root with
  | none => simp [search, tasks, judged, rooted, Run.forestTasks]
  | some root => simp only [search, tasks, judged, rooted, forest_tasks_judged_from]

theorem mem_judged {above : List NodeId} {found : Match} (member : (above, found) ∈ input.judged) :
    found ∈ (input.acceptedAt above found.start).1 ∧
      ∃ root, input.tree.root = some root ∧
        Relation.ReflTransGen input.tree.IsChild root found.start := by
  cases rooted : input.tree.root with
  | none => simp [judged, rooted] at member
  | some root =>
      rw [judged, rooted] at member
      obtain ⟨accepted, reaches⟩ := mem_judged_from member
      exact ⟨accepted, root, rfl, reaches⟩

theorem judged_enclosing (consistent : input.tree.Consistent) (acyclic : input.tree.Acyclic) :
    ∀ entry ∈ input.judged, entry.1 = input.enclosing entry.2.start := by
  intro entry member
  cases rooted : input.tree.root with
  | none => simp [judged, rooted] at member
  | some root =>
      rw [judged, rooted, ← enclosing_root rooted] at member
      exact judged_from_enclosing consistent acyclic rooted Tree.Descent.here _ entry member

theorem known_of_judged (consistent : input.tree.Consistent) {above : List NodeId} {found : Match}
    (member : (above, found) ∈ input.judged) :
    MatchSite.Known ⟨input.tree, found.start, found.captures, above⟩ := by
  obtain ⟨accepted, root, rooted, reaches⟩ := mem_judged member
  have issued : input.tree.contains found.start = true :=
    consistent.known_of_reaches (consistent.root_known root rooted) reaches
  refine ⟨issued, ?_⟩
  intro name node bound
  simp only [accepted_at_matches, SearchInput.accepted, List.mem_flatMap, List.mem_filter,
    List.mem_map] at accepted
  obtain ⟨entry, _, ⟨captures, matched, same⟩, _⟩ := accepted
  have boundThere : captures.find? name = some node := by
    rw [← bound, ← same]
  exact consistent.known_of_reaches issued (Tree.reaches_of_match_at matched boundThere)

/-- The statistics of a run that ends at a state. -/
def statsSince (progress : Progress) (final : RunState) : ExecutionStats :=
  let before := progress.builder.graph
  let after := final.progress.builder.graph
  { final.stats with
    entitiesAdded := after.entities.length - before.entities.length
    edgesAdded := after.edges.length - before.edges.length }

/-- Executing the forest of a search is one loop over its matches, each under the ancestors that the
search judged it under: on acyclic links, the nodes that enclose its own. The loop ends early at a
converter that lacks an ancestor or meets an unknown kind, and leaves what the tasks before it have
done. -/
theorem execute_loops_over_matches (input : SearchInput) (consistent : input.tree.Consistent)
    (progress : Progress) :
    let ended := Run.loop input.tasks ⟨progress, .zero⟩
    execute input.patterns input.tree input.search.1 progress =
        (ended.1.map fun _ => statsSince progress ended.2, ended.2.progress) ∧
      MatchNode.flattenAll input.search.1 = input.judged.map (·.2) ∧
      (∀ entry ∈ input.judged, entry.2 ∈ (input.acceptedAt entry.1 entry.2.start).1) ∧
      (input.tree.Acyclic → ∀ entry ∈ input.judged, entry.1 = input.enclosing entry.2.start) ∧
      ∀ error, ended.1 = .error error →
        ∃ earlier site converter later,
          input.tasks = earlier ++ .convert site error.pattern converter error.converter :: later ∧
          (input.patterns[error.pattern]?.bind fun entry => entry.converters[error.converter]?) =
            some converter ∧
          Run.loop earlier ⟨progress, .zero⟩ = (.ok (), ended.2) ∧
          (converter.execute site).run.run ended.2.progress =
            (.error error.cause, ended.2.progress) ∧
          ((∃ name, error.cause = .missingAncestor name) ∨
            ∃ text, error.cause = .unknownEntityKind text) := by
  intro ended
  have walked : (Run.executeForest input.patterns input.tree [] input.search.1).run.run
      ⟨progress, .zero⟩ = ended := by
    rw [Run.does_execute_forest, forest_tasks_judged]
  refine ⟨?_, flatten_judged, fun entry member => (mem_judged member).1,
    judged_enclosing consistent, ?_⟩
  · rw [execute, walked]
    rfl
  · intro error raised
    have stopped : Run.loop input.tasks ⟨progress, .zero⟩ = (.error error, ended.2) := by
      rw [← raised]
    obtain ⟨earlier, site, converter, later, split, done, fails, final⟩ :=
      Run.loop_stops input.tasks _ stopped
    have listed : .convert site error.pattern converter error.converter ∈ input.tasks := by
      rw [split]
      simp
    obtain ⟨⟨above, found⟩, member, own⟩ := List.mem_flatMap.1 listed
    obtain ⟨same, numbered⟩ := Run.converter_of_task own
    refine ⟨earlier, site, converter, later, split, numbered, done, ?_, ?_⟩
    · rw [Converter.run_execute, fails]
      rfl
    · have known : site.Known := by
        rw [same]
        exact known_of_judged consistent member
      have foreseen := (Converter.effect_foreseen known ended.2.progress converter).error_of_eq fails
      rcases foreseen with absence | unknown
      · have lacking := final absence
        left
        cases cause : error.cause <;> rw [cause] at lacking <;> cases lacking
        exact ⟨_, rfl⟩
      · exact Or.inr unknown

/-- The match at the child lies below one that defines the package; its first converter lacks a
capture, its second one names a kind there is none of. -/
def stoppedInput : SearchInput :=
  let span : Span := ⟨0, 0, 1, 0⟩
  let capture (name : String) : Expression := .mk name [.reference (.mk name false [])]
  let literal (text : String) : Expression := .mk text [.literal text]
  { patterns := [⟨.node "f" [] [] [] false, [], [⟨.node (literal "m") (literal "package") none, []⟩]⟩,
      ⟨.node "a" [] [] [] false, [], [⟨.node (capture "x") (literal "class") none, []⟩,
        ⟨.node (capture "parent") (literal "odd") none, []⟩]⟩]
    tree := ⟨#[⟨0, "f", "", span, none, [1]⟩, ⟨1, "a", "a", span, some 0, []⟩], some 0⟩
    builder := none }

theorem stopped_consistent : stoppedInput.tree.Consistent :=
  Tree.consistent_of_arena (by decide) (by decide)

theorem unknown_kind_stops_behind_skipped :
    stoppedInput.tree.Consistent ∧
      (execute stoppedInput.patterns stoppedInput.tree stoppedInput.search.1 ⟨.empty, []⟩).1 =
        .error ⟨1, 1, .unknownEntityKind "odd"⟩ ∧
      (execute stoppedInput.patterns stoppedInput.tree stoppedInput.search.1 ⟨.empty, []⟩).2.events =
        [.converterSkipped 1 0 (.missingCapture "x")] := by
  obtain ⟨looped, _⟩ := execute_loops_over_matches stoppedInput stopped_consistent ⟨.empty, []⟩
  refine ⟨stopped_consistent, ?_, ?_⟩
  · rw [looped]
    decide +kernel
  · rw [looped]
    decide +kernel

end SearchInput

end SyntaxGraph
