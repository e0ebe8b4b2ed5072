import SyntaxGraph.Proofs.Engine.Balance

/-!
Patterns without their validations. Validating an identifier looks at the builder and reports; taken
out of the patterns, it changes no search, and every other converter finds the builder that it found
before. A run without validations therefore goes in step with the run that has them.
-/

set_option autoImplicit false

namespace SyntaxGraph

def Action.validates : Action → Bool
  | .validateIdentifier _ => true
  | _ => false

def PatternEntry.withoutValidation (entry : PatternEntry) : PatternEntry :=
  { entry with converters := entry.converters.filter fun converter => !converter.action.validates }

/-- All patterns, without the converters that validate. The others move up. -/
def PatternSet.withoutValidation (patterns : PatternSet) : PatternSet :=
  patterns.map PatternEntry.withoutValidation

-- The search

namespace SearchInput

variable (patterns : PatternSet) (tree : Tree) (builder : Option GraphBuilder)

theorem candidates_without_validation (node : NodeId) :
    candidatesAt ⟨patterns.withoutValidation, tree, builder⟩ node =
      candidatesAt ⟨patterns, tree, builder⟩ node := by
  simp only [candidatesAt, PatternSet.withoutValidation, List.zipIdx_map, List.flatMap_map]
  rfl

theorem accepted_at_without_validation (ancestors : List NodeId) (node : NodeId) :
    acceptedAt ⟨patterns.withoutValidation, tree, builder⟩ ancestors node =
      acceptedAt ⟨patterns, tree, builder⟩ ancestors node := by
  simp only [acceptedAt, candidates_without_validation]
  rfl

/-- What is found is up to patterns and predicates. -/
theorem search_without_validation :
    search ⟨patterns.withoutValidation, tree, builder⟩ = search ⟨patterns, tree, builder⟩ :=
  search_congr rfl (accepted_at_without_validation patterns tree builder)

end SearchInput

-- The tasks

namespace Run

/-- The second tasks are the first ones without those that validate. Where a converter stands in its
entry does not matter. -/
inductive Thinned : List Task → List Task → Prop
  | nothing : Thinned [] []
  | enter {tasks fewer : List Task} (later : Thinned tasks fewer) :
      Thinned (.enter :: tasks) (.enter :: fewer)
  | kept {site : MatchSite} {pattern : Nat} {converter : Converter} (index moved : Nat)
      {tasks fewer : List Task} (later : Thinned tasks fewer) :
      Thinned (.convert site pattern converter index :: tasks)
        (.convert site pattern converter moved :: fewer)
  | dropped {site : MatchSite} {pattern : Nat} {converter : Converter} (index : Nat)
      (validates : converter.action.validates = true) {tasks fewer : List Task}
      (later : Thinned tasks fewer) :
      Thinned (.convert site pattern converter index :: tasks) fewer

theorem Thinned.append {first second thinnedFirst thinnedSecond : List Task}
    (starts : Thinned first thinnedFirst) (continues : Thinned second thinnedSecond) :
    Thinned (first ++ second) (thinnedFirst ++ thinnedSecond) := by
  induction starts with
  | nothing => exact continues
  | enter _ induction => exact .enter induction
  | kept index moved _ induction => exact .kept index moved induction
  | dropped index validates _ induction => exact .dropped index validates induction

theorem conversions_thinned (site : MatchSite) (pattern : Nat) (converters : List Converter)
    (index moved : Nat) :
    Thinned ((converters.zipIdx index).map fun (converter, position) =>
        .convert site pattern converter position)
      (((converters.filter fun converter => !converter.action.validates).zipIdx moved).map
        fun (converter, position) => .convert site pattern converter position) := by
  induction converters generalizing index moved with
  | nil => exact .nothing
  | cons converter rest induction =>
      by_cases validates : converter.action.validates = true
      · rw [List.filter_cons_of_neg (by rw [validates]; exact Bool.false_ne_true)]
        exact .dropped index validates (induction _ _)
      · rw [List.filter_cons_of_pos (by simpa using validates)]
        exact .kept index moved (induction _ _)

variable (patterns : PatternSet) (tree : Tree)

theorem tasks_of_thinned (ancestors : List NodeId) (found : Match) :
    Thinned (tasksOf patterns tree ancestors found)
      (tasksOf patterns.withoutValidation tree ancestors found) := by
  apply Thinned.enter
  have entries : patterns.withoutValidation[found.pattern]? =
      patterns[found.pattern]?.map PatternEntry.withoutValidation := List.getElem?_map
  rw [convertersOf, convertersOf, entries]
  cases patterns[found.pattern]? with
  | none => exact .nothing
  | some entry => exact conversions_thinned _ _ entry.converters 0 0

mutual

theorem node_tasks_thinned (ancestors : List NodeId) (node : MatchNode) :
    Thinned (nodeTasks patterns tree ancestors node)
      (nodeTasks patterns.withoutValidation tree ancestors node) := by
  cases node with
  | mk found children =>
      rw [nodeTasks, nodeTasks]
      exact (tasks_of_thinned patterns tree ancestors found).append
        (forest_tasks_thinned (ancestors ++ [found.start]) children)

theorem forest_tasks_thinned (ancestors : List NodeId) (forest : List MatchNode) :
    Thinned (forestTasks patterns tree ancestors forest)
      (forestTasks patterns.withoutValidation tree ancestors forest) := by
  cases forest with
  | nil =>
      rw [forestTasks, forestTasks]
      exact .nothing
  | cons node rest =>
      rw [forestTasks, forestTasks]
      exact (node_tasks_thinned ancestors node).append (forest_tasks_thinned ancestors rest)

end

end Run

theorem SearchInput.tasks_thinned (patterns : PatternSet) (tree : Tree)
    (builder : Option GraphBuilder) :
    Run.Thinned (tasks ⟨patterns, tree, builder⟩)
      (tasks ⟨patterns.withoutValidation, tree, builder⟩) := by
  rw [← forest_tasks_judged, ← forest_tasks_judged, search_without_validation]
  exact Run.forest_tasks_thinned patterns tree [] _

-- The two runs

theorem kept_by_writes_eq : KeptByWrites (· = ·) where
  define same definition := congrArg (·.define definition) same
  link same ends edge place := congrArg (·.link ends edge place) same
  recordImport same record := congrArg (·.recordImport record) same

theorem Action.sees_alike_refl (site : MatchSite) (builder : GraphBuilder) (action : Action) :
    action.SeesAlike site builder builder := by
  cases action with
  | node => exact .node rfl
  | connection => exact .connection rfl rfl
  | validateIdentifier => exact .validateIdentifier rfl
  | recordImport => exact .recordImport rfl

/-- What a converter does is up to the builder, whatever has been reported. -/
theorem Converter.effect_in_same_builder (site : MatchSite) (converter : Converter)
    {left right : Progress} (same : left.builder = right.builder) :
    Alike (fun (left right : Bool × Progress) =>
        left.1 = right.1 ∧ left.2.builder = right.2.builder)
      (converter.effect site left) (converter.effect site right) := by
  apply Converter.effect_alike _ _ kept_by_writes_eq same
  · rw [same]
  · rw [same]
    exact Action.sees_alike_refl site right.builder converter.action

namespace Run

/-- States of two runs that have entered as many matches and built the same. -/
structure InStep (left right : RunState) : Prop where
  builder_eq : left.progress.builder = right.progress.builder
  matched_eq : left.stats.matched = right.stats.matched

variable {left right next : RunState} (inStep : InStep left right)
include inStep

theorem InStep.enter (stepped : step left .enter = .ok next) :
    ∃ also, step right .enter = .ok also ∧ InStep next also := by
  cases stepped
  exact ⟨_, rfl, inStep.builder_eq, congrArg (· + 1) inStep.matched_eq⟩

theorem InStep.convert {site : MatchSite} {pattern : Nat} {converter : Converter} {index : Nat}
    (stepped : step left (.convert site pattern converter index) = .ok next) (moved : Nat) :
    ∃ also, step right (.convert site pattern converter moved) = .ok also ∧ InStep next also := by
  have effects := Converter.effect_in_same_builder site converter inStep.builder_eq
  rw [step, Converter.run_execute] at stepped ⊢
  rcases effects.both_or_neither with
    ⟨⟨passed, after⟩, ⟨_, alsoAfter⟩, ended, alsoEnded, rfl, sameAfter⟩ |
      ⟨cause, failed, alsoFailed⟩
  · rw [ended] at stepped
    rw [alsoEnded]
    cases passed <;> cases stepped <;> exact ⟨_, rfl, sameAfter, inStep.matched_eq⟩
  · rw [failed] at stepped
    rw [alsoFailed]
    cases cause <;> cases stepped <;> exact ⟨_, rfl, inStep.builder_eq, inStep.matched_eq⟩

/-- A validation that does not stop its run leaves it in step with the run that lacks it. -/
theorem InStep.validate {site : MatchSite} {pattern : Nat} {converter : Converter} {index : Nat}
    (validates : converter.action.validates = true)
    (stepped : step left (.convert site pattern converter index) = .ok next) :
    InStep next right := by
  have matched_eq : next.stats.matched = left.stats.matched := (step_balanced stepped).entered
  have builder_eq : next.progress.builder = left.progress.builder := by
    rcases builder_of_step stepped with same | ⟨_, _, other, _, sameTask, _, writes⟩
    · exact same
    · cases sameTask
      cases acts : converter.action with
      | validateIdentifier identifier =>
          rw [acts] at writes
          exact writes.builder_of_validate
      | node | connection | recordImport =>
          rw [acts] at validates
          cases validates
  exact ⟨builder_eq.trans inStep.builder_eq, matched_eq.trans inStep.matched_eq⟩

omit inStep in
theorem loop_thinned {tasks fewer : List Task} (thinned : Thinned tasks fewer)
    {left right final : RunState} (inStep : InStep left right)
    (ended : loop tasks left = (.ok (), final)) :
    ∃ also, loop fewer right = (.ok (), also) ∧ InStep final also := by
  induction thinned generalizing left right with
  | nothing =>
      cases ended
      exact ⟨right, rfl, inStep⟩
  | enter _ induction =>
      obtain ⟨also, stepped, after⟩ := inStep.enter rfl
      rw [loop, stepped]
      exact induction after ended
  | @kept site pattern converter index moved _ _ _ induction =>
      rw [loop] at ended
      cases stepped : step left (.convert site pattern converter index) with
      | ok next =>
          rw [stepped] at ended
          obtain ⟨also, alsoStepped, after⟩ := inStep.convert stepped moved
          rw [loop, alsoStepped]
          exact induction after ended
      | error error =>
          rw [stepped] at ended
          cases ended
  | @dropped site pattern converter index validates _ _ _ induction =>
      rw [loop] at ended
      cases stepped : step left (.convert site pattern converter index) with
      | ok next =>
          rw [stepped] at ended
          exact induction (inStep.validate validates stepped) ended
      | error error =>
          rw [stepped] at ended
          cases ended

end Run

/-- Validations influence nothing but what is reported and how many converters are counted. Where a
run succeeds, so does the run with the same patterns but without their validations; its search is
the same, and so is the builder that it leaves, with the entities and edges counted as added. -/
theorem validation_leaves_no_trace {patterns : PatternSet} {tree : Tree} {builder : GraphBuilder}
    {stats : ExecutionStats} (succeeds : (runEngine patterns tree builder).1 = .ok stats) :
    let fewer := patterns.withoutValidation
    SearchInput.search ⟨fewer, tree, some builder⟩ =
        SearchInput.search ⟨patterns, tree, some builder⟩ ∧
      ∃ counted, (runEngine fewer tree builder).1 = .ok counted ∧
        (runEngine fewer tree builder).2.builder = (runEngine patterns tree builder).2.builder ∧
        counted.matched = stats.matched ∧ counted.entitiesAdded = stats.entitiesAdded ∧
        counted.edgesAdded = stats.edgesAdded := by
  intro fewer
  obtain ⟨final, looped, counted, left⟩ := loop_of_run_ok succeeds
  have start : Run.InStep (SearchInput.initialState ⟨patterns, tree, some builder⟩ builder)
      (SearchInput.initialState ⟨fewer, tree, some builder⟩ builder) := ⟨rfl, rfl⟩
  obtain ⟨also, alsoLooped, inStep⟩ := Run.loop_thinned
    (SearchInput.tasks_thinned patterns tree (some builder)) start looped
  have ran := run_of_loop_ok alsoLooped
  refine ⟨SearchInput.search_without_validation patterns tree (some builder), _,
    congrArg Prod.fst ran, ?_, ?_⟩
  · rw [left, show (runEngine fewer tree builder).2 = also.progress from congrArg Prod.snd ran]
    exact inStep.builder_eq.symm
  · rw [counted]
    simp only [SearchInput.statsSince, inStep.builder_eq, inStep.matched_eq, and_self]

/-- An identifier is looked for before the definition that would mention it, another one is not to be
had at all, and a connection follows. -/
def watchedPatterns : PatternSet :=
  let capture (name : String) : Expression := .mk name [.reference (.mk name false [])]
  let literal (text : String) : Expression := .mk text [.literal text]
  [⟨.node "f" [] [] [] false, [],
    [⟨.validateIdentifier (literal "m"), []⟩, ⟨.node (literal "m") (literal "package") none, []⟩,
      ⟨.validateIdentifier (capture "x"), []⟩,
      ⟨.connection (literal "m") (literal "n") .uses none none none, []⟩]⟩]

theorem unwatched_run_builds_alike :
    (runEngine watchedPatterns singleNode .empty).1 = .ok ⟨1, 3, 1, 2, 1⟩ ∧
      (runEngine watchedPatterns singleNode .empty).2.events =
        [.identifierNotFound "m" "", .converterSkipped 0 2 (.missingCapture "x")] ∧
      (runEngine watchedPatterns.withoutValidation singleNode .empty).2.events = [] ∧
      (runEngine watchedPatterns.withoutValidation singleNode .empty).2.builder =
        (runEngine watchedPatterns singleNode .empty).2.builder ∧
      ∃ counted, (runEngine watchedPatterns.withoutValidation singleNode .empty).1 = .ok counted ∧
        counted.matched = 1 ∧ counted.entitiesAdded = 2 ∧ counted.edgesAdded = 1 := by
  have succeeds : (runEngine watchedPatterns singleNode .empty).1 = .ok ⟨1, 3, 1, 2, 1⟩ := by
    decide +kernel
  obtain ⟨_, counted, alsoSucceeds, builder_eq, same⟩ := validation_leaves_no_trace succeeds
  exact ⟨succeeds, by decide +kernel, by decide +kernel, builder_eq, counted, alsoSucceeds, same⟩

end SyntaxGraph
