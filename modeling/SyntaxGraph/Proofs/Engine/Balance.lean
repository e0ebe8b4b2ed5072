import Mathlib.Algebra.Ring.Nat
import Mathlib.Data.Finset.Card
import SyntaxGraph.Proofs.Engine.Growth

/-!
The books of a run. Every task enters a match or takes on one converter of it, and whatever a
converter adds to the graph or reports shows in the counters; so the counters of a whole run agree
with the matches of its search, with the growth of its graph, and with its events.
-/

set_option autoImplicit false

namespace SyntaxGraph

-- Ids

namespace EntityGraph

/-- Ids that were not there follow those that were, each of them once. -/
def ExtendsIds (before after : List String) : Prop :=
  ∃ fresh, after = before ++ fresh ∧ fresh.Nodup ∧ ∀ id ∈ fresh, id ∉ before

theorem length_ids (graph : EntityGraph) : graph.ids.length = graph.entities.length :=
  List.length_map _

variable {before between after : List String}

theorem ExtendsIds.refl (ids : List String) : ExtendsIds ids ids :=
  ⟨[], (List.append_nil ids).symm, List.nodup_nil, nofun⟩

theorem ExtendsIds.trans (first : ExtendsIds before between) (second : ExtendsIds between after) :
    ExtendsIds before after := by
  obtain ⟨fresh, rfl, distinct, new⟩ := first
  obtain ⟨more, rfl, distinctMore, newer⟩ := second
  refine ⟨fresh ++ more, List.append_assoc _ _ _, ?_, ?_⟩
  · refine List.nodup_append.2 ⟨distinct, distinctMore, ?_⟩
    rintro id listed _ also rfl
    exact newer id also (List.mem_append_right _ listed)
  · intro id listed present
    rcases List.mem_append.1 listed with early | late
    · exact new id early present
    · exact newer id late (List.mem_append_left _ present)

theorem extends_with_id (ids : List String) (id : String) : ExtendsIds ids (withId ids id) := by
  unfold withId
  by_cases present : id ∈ ids
  · rw [if_pos present]
    exact .refl ids
  · rw [if_neg present]
    refine ⟨[id], rfl, List.nodup_singleton id, ?_⟩
    intro other listed
    rw [List.mem_singleton.1 listed]
    exact present

theorem ExtendsIds.length_eq (extended : ExtendsIds before after) :
    after.length = before.length + (after.toFinset \ before.toFinset).card := by
  obtain ⟨fresh, rfl, distinct, new⟩ := extended
  have added : (before ++ fresh).toFinset \ before.toFinset = fresh.toFinset := by
    ext id
    simp only [Finset.mem_sdiff, List.mem_toFinset, List.mem_append]
    exact ⟨fun ⟨listed, old⟩ => listed.resolve_left old, fun listed => ⟨Or.inr listed, new id listed⟩⟩
  rw [added, List.toFinset_card_of_nodup distinct, List.length_append]

end EntityGraph

theorem Action.Writes.extends_ids {site : MatchSite} {action : Action} {before after : GraphBuilder}
    (writes : action.Writes site before after) :
    EntityGraph.ExtendsIds before.graph.ids after.graph.ids := by
  cases writes with
  | define definition resolved =>
      show EntityGraph.ExtendsIds _ (before.graph.claim _ _ _ _).ids
      rw [EntityGraph.ids_claim]
      exact EntityGraph.extends_with_id _ _
  | link ends place resolved placed =>
      show EntityGraph.ExtendsIds _ ((before.graph.ensureEntity _ _ _).ensureEntity _ _ _).ids
      rw [EntityGraph.ids_ensure_entity, EntityGraph.ids_ensure_entity]
      exact (EntityGraph.extends_with_id _ _).trans (EntityGraph.extends_with_id _ _)
  | skipSelf => exact .refl _
  | validate => exact .refl _
  | recordImport texts => exact .refl _

-- Events

namespace Event

def skipsSelfConnection : Event → Bool
  | .selfConnectionSkipped _ => true
  | _ => false

def skipsConverter : Event → Bool
  | .converterSkipped _ _ _ => true
  | _ => false

end Event

namespace SearchInput

variable {input : SearchInput}

theorem judge_skips_nothing (ancestors : List NodeId) (candidate : Match)
    (predicates : List Predicate) :
    ∀ event ∈ (input.judge ancestors candidate predicates).2,
      event.skipsSelfConnection = false ∧ event.skipsConverter = false := by
  intro event listed
  unfold judge at listed
  dsimp only at listed
  split at listed
  · cases listed
  · split at listed
    · rw [List.mem_singleton.1 listed]
      exact ⟨rfl, rfl⟩
    · rw [List.mem_singleton.1 listed]
      exact ⟨rfl, rfl⟩

theorem search_from_skips_nothing (levels : Nat) (ancestors : List NodeId) (node : NodeId) :
    ∀ event ∈ (input.searchFrom levels ancestors node).2,
      event.skipsSelfConnection = false ∧ event.skipsConverter = false := by
  induction levels generalizing ancestors node with
  | zero => nofun
  | succ levels induction =>
      intro event listed
      rcases List.mem_append.1 listed with here | below
      · obtain ⟨judged, judgedHere, reported⟩ := List.mem_flatMap.1 here
        obtain ⟨candidate, _, rfl⟩ := List.mem_map.1 judgedHere
        exact judge_skips_nothing _ _ _ event reported
      · obtain ⟨found, member, reported⟩ := List.mem_flatMap.1 below
        obtain ⟨child, _, rfl⟩ := List.mem_map.1 member
        exact induction _ child event reported

theorem search_skips_nothing : ∀ event ∈ input.search.2,
    event.skipsSelfConnection = false ∧ event.skipsConverter = false := by
  unfold search
  cases input.tree.root with
  | none => nofun
  | some root => exact search_from_skips_nothing _ _ root

end SearchInput

-- Counters

def Action.connects : Action → Bool
  | .connection _ _ _ _ _ _ => true
  | _ => false

def Progress.edgeCount (progress : Progress) : Nat := progress.builder.graph.edges.length

def Progress.selfSkips (progress : Progress) : Nat :=
  progress.events.countP Event.skipsSelfConnection

def Progress.converterSkips (progress : Progress) : Nat :=
  progress.events.countP Event.skipsConverter

theorem Action.effect_balanced {site : MatchSite} {progress after : Progress} {action : Action}
    (performed : action.effect site progress = .ok after) :
    after.edgeCount + after.selfSkips =
        progress.edgeCount + progress.selfSkips + [action].countP Action.connects ∧
      after.converterSkips = progress.converterSkips := by
  cases action with
  | node name kind capture =>
      obtain ⟨definition, _, same⟩ := exists_of_bind_ok performed
      cases same
      have edges : (progress.builder.define definition).graph.edges = progress.builder.graph.edges :=
        EntityGraph.edges_claim _ _ _ _
      exact ⟨congrArg (·.length + progress.selfSkips) edges, rfl⟩
  | connection source target edge sourceKind targetKind position =>
      obtain ⟨ends, _, continued⟩ := exists_of_bind_ok performed
      by_cases self : ends.isSelfConnection = true
      · rw [if_pos self] at continued
        cases continued
        simp [Progress.edgeCount, Progress.selfSkips, Progress.converterSkips, Progress.observe,
          Event.skipsSelfConnection, Event.skipsConverter, Action.connects, Nat.add_assoc]
      · rw [if_neg self] at continued
        obtain ⟨place, _, same⟩ := exists_of_bind_ok continued
        cases same
        have edges : (progress.builder.link ends edge place).graph.edges.length =
            progress.builder.graph.edges.length + 1 := by
          simp [GraphBuilder.link, EntityGraph.connect, EntityGraph.appendEdge,
            EntityGraph.edges_ensure_entity]
        simp only [Progress.edgeCount, Progress.selfSkips, Progress.converterSkips, edges,
          Action.connects, List.countP_singleton, if_true, and_true]
        omega
  | validateIdentifier identifier =>
      obtain ⟨text, _, continued⟩ := exists_of_bind_ok performed
      by_cases mentioned : progress.builder.mentions text = true
      · rw [if_pos mentioned] at continued
        cases continued
        exact ⟨rfl, rfl⟩
      · rw [if_neg mentioned] at continued
        cases continued
        simp [Progress.edgeCount, Progress.selfSkips, Progress.converterSkips, Progress.observe,
          Event.skipsSelfConnection, Event.skipsConverter, Action.connects]
  | recordImport fields =>
      obtain ⟨texts, _, same⟩ := exists_of_bind_ok performed
      cases same
      exact ⟨rfl, rfl⟩

namespace Run

def Task.isConversion : Task → Bool
  | .enter => false
  | .convert _ _ _ _ => true

/-- The converter of a task, if it is executed: its predicates pass and nothing is missing. -/
def executedAt (state : RunState) : Task → List Converter
  | .enter => []
  | .convert site _ converter _ =>
      match (converter.execute site).run.run state.progress with
      | (.ok true, _) => [converter]
      | _ => []

/-- The converters that a loop executes, one after another. -/
def executedIn : List Task → RunState → List Converter
  | [], _ => []
  | task :: rest, state =>
      match step state task with
      | .ok next => executedAt state task ++ executedIn rest next
      | .error _ => []

/-- What tasks that execute some converters have added to the counters of a state. -/
structure Balanced (tasks : List Task) (executed : List Converter) (before after : RunState) :
    Prop where
  entered : after.stats.matched =
    before.stats.matched + tasks.countP fun task => !task.isConversion
  converted : after.stats.executed + after.stats.skipped =
    before.stats.executed + before.stats.skipped + tasks.countP Task.isConversion
  executed_eq : after.stats.executed = before.stats.executed + executed.length
  joined : after.progress.edgeCount + after.progress.selfSkips =
    before.progress.edgeCount + before.progress.selfSkips +
      (executed.map (·.action)).countP Action.connects
  reported : after.progress.converterSkips + before.stats.skipped ≤
    before.progress.converterSkips + after.stats.skipped

theorem Balanced.nothing (state : RunState) : Balanced [] [] state state :=
  ⟨rfl, rfl, rfl, rfl, Nat.le_refl _⟩

theorem Balanced.append {first second : List Task} {executed further : List Converter}
    {before between after : RunState} (starts : Balanced first executed before between)
    (continues : Balanced second further between after) :
    Balanced (first ++ second) (executed ++ further) before after where
  entered := by
    rw [continues.entered, starts.entered, List.countP_append, Nat.add_assoc]
  converted := by
    rw [continues.converted, starts.converted, List.countP_append, Nat.add_assoc]
  executed_eq := by
    rw [continues.executed_eq, starts.executed_eq, List.length_append, Nat.add_assoc]
  joined := by
    rw [continues.joined, starts.joined, List.map_append, List.countP_append, Nat.add_assoc]
  reported := by
    have early := starts.reported
    have late := continues.reported
    omega

theorem step_balanced {task : Task} {state next : RunState}
    (stepped : step state task = .ok next) :
    Balanced [task] (executedAt state task) state next := by
  cases task with
  | enter =>
      cases stepped
      exact ⟨rfl, rfl, rfl, rfl, Nat.le_refl _⟩
  | convert site pattern converter index =>
      -- A converter that is held back or passed over has only been counted, and a skip reported.
      rw [step, Converter.run_execute] at stepped
      rw [executedAt, Converter.run_execute]
      cases performed : converter.effect site state.progress with
      | ok result =>
          obtain ⟨passed, after⟩ := result
          rw [performed] at stepped
          obtain ⟨gate, _, continued⟩ := exists_of_bind_ok performed
          cases gate with
          | true =>
              rw [if_pos rfl] at continued
              obtain ⟨done, acted, same⟩ := exists_of_bind_ok continued
              cases same
              cases stepped
              obtain ⟨joined, skips⟩ := Action.effect_balanced acted
              exact ⟨rfl, Nat.add_right_comm _ _ _, rfl, joined,
                Nat.le_of_eq (congrArg (· + state.stats.skipped) skips)⟩
          | false =>
              cases continued
              cases stepped
              exact ⟨rfl, rfl, rfl, rfl, by dsimp only; omega⟩
      | error cause =>
          rw [performed] at stepped
          have passed : Balanced [.convert site pattern converter index] [] state
              (passOver state pattern index cause) := by
            refine ⟨rfl, rfl, rfl, ?_, ?_⟩
            · simp [passOver, Progress.edgeCount, Progress.selfSkips, Progress.observe,
                Event.skipsSelfConnection]
            · simp [passOver, Progress.converterSkips, Progress.observe, Event.skipsConverter]
              omega
          cases cause <;> cases stepped <;> exact passed

theorem loop_balanced (tasks : List Task) {state final : RunState}
    (ended : loop tasks state = (.ok (), final)) :
    Balanced tasks (executedIn tasks state) state final := by
  induction tasks generalizing state with
  | nil =>
      cases ended
      exact .nothing _
  | cons task rest induction =>
      rw [loop] at ended
      rw [executedIn]
      cases stepped : step state task with
      | error error =>
          rw [stepped] at ended
          cases ended
      | ok next =>
          rw [stepped] at ended
          exact (step_balanced stepped).append (induction ended)

end Run

/-- A match is entered once, and each of its converters is taken on once. -/
theorem Run.count_tasks_of (patterns : PatternSet) (tree : Tree) (ancestors : List NodeId)
    (found : Match) :
    ((tasksOf patterns tree ancestors found).countP fun task => !task.isConversion) = 1 ∧
      (tasksOf patterns tree ancestors found).countP Task.isConversion =
        (convertersOf patterns found.pattern).length := by
  rw [tasksOf, List.countP_cons_of_pos rfl, List.countP_cons_of_neg Bool.false_ne_true,
    List.countP_map, List.countP_map]
  constructor
  · rw [List.countP_eq_zero.2]
    intro converter _
    exact Bool.false_ne_true
  · rw [List.countP_eq_length]
    intro converter _
    rfl

namespace SearchInput

variable {input : SearchInput}

theorem count_entered :
    (input.tasks.countP fun task => !task.isConversion) =
      (MatchNode.flattenAll input.search.1).length := by
  have once : ∀ entry ∈ input.judged,
      ((List.countP fun task => !task.isConversion) ∘ input.tasksUnder) entry = 1 :=
    fun _ _ => (Run.count_tasks_of _ _ _ _).1
  rw [tasks, List.countP_flatMap, List.map_congr_left once, List.map_const', List.sum_replicate_nat,
    Nat.mul_one, flatten_judged, List.length_map]

theorem count_conversions :
    input.tasks.countP Run.Task.isConversion =
      ((MatchNode.flattenAll input.search.1).map fun found =>
        (Run.convertersOf input.patterns found.pattern).length).sum := by
  rw [tasks, List.countP_flatMap, flatten_judged, List.map_map]
  apply congrArg List.sum
  apply List.map_congr_left
  intro entry _
  exact (Run.count_tasks_of _ _ _ _).2

theorem entry_of_found {found : Match} (listed : found ∈ MatchNode.flattenAll input.search.1) :
    ∃ entry, input.patterns[found.pattern]? = some entry ∧
      (Run.convertersOf input.patterns found.pattern).length = entry.converters.length := by
  rw [flatten_judged] at listed
  obtain ⟨⟨above, _⟩, judged, rfl⟩ := List.mem_map.1 listed
  obtain ⟨accepted, _⟩ := mem_judged judged
  simp only [accepted_at_matches, SearchInput.accepted, List.mem_flatMap, List.mem_filter,
    List.mem_map] at accepted
  obtain ⟨⟨entry, index⟩, numbered, ⟨captures, _, same⟩, _⟩ := accepted
  have present : input.patterns[index]? = some entry := List.mk_mem_zipIdx_iff_getElem?.1 numbered
  rw [← same]
  refine ⟨entry, present, ?_⟩
  rw [Run.convertersOf, present, List.length_zipIdx]
  rfl

end SearchInput

theorem run_extends_ids (patterns : PatternSet) (tree : Tree) (builder : GraphBuilder) :
    EntityGraph.ExtendsIds builder.graph.ids (runEngine patterns tree builder).2.builder.graph.ids :=
  @run_engine_keeps (fun later => EntityGraph.ExtendsIds builder.graph.ids later.graph.ids)
    (fun _ _ _ _ writes extended => extended.trans writes.extends_ids) patterns tree builder (.refl _)

theorem run_keeps_edges (patterns : PatternSet) (tree : Tree) (builder : GraphBuilder) :
    builder.graph.edges <+: (runEngine patterns tree builder).2.builder.graph.edges := by
  rw [run_engine_eq]
  exact (Run.loop_grows _ (SearchInput.initialState _ builder)).edges_kept

section Succeeding

variable {patterns : PatternSet} {tree : Tree} {builder : GraphBuilder} {stats : ExecutionStats}
  (succeeds : (runEngine patterns tree builder).1 = .ok stats)
include succeeds

/-- The counters of a run are those of its loop, which starts with empty books: the search counts
nothing, and none of its events is about a converter. -/
theorem run_counters :
    let input : SearchInput := ⟨patterns, tree, some builder⟩
    let executed := Run.executedIn input.tasks (input.initialState builder)
    let ended := (runEngine patterns tree builder).2
    stats.matched = (input.tasks.countP fun task => !task.isConversion) ∧
      stats.executed + stats.skipped = input.tasks.countP Run.Task.isConversion ∧
      stats.executed = executed.length ∧
      ended.converterSkips ≤ stats.skipped ∧
      ended.edgeCount + ended.selfSkips =
        builder.graph.edges.length + (executed.map (·.action)).countP Action.connects := by
  intro input executed ended
  obtain ⟨final, looped, counted, left⟩ := loop_of_run_ok succeeds
  obtain ⟨entered, converted, executed_eq, joined, reported⟩ :=
    Run.loop_balanced input.tasks looped
  have noSelfSkips : (input.initialState builder).progress.selfSkips = 0 :=
    List.countP_eq_zero.2 fun event listed => by
      rw [(SearchInput.search_skips_nothing event listed).1]
      exact Bool.false_ne_true
  have noSkips : (input.initialState builder).progress.converterSkips = 0 :=
    List.countP_eq_zero.2 fun event listed => by
      rw [(SearchInput.search_skips_nothing event listed).2]
      exact Bool.false_ne_true
  rw [noSelfSkips] at joined
  rw [noSkips] at reported
  rw [counted, show ended = final.progress from left]
  refine ⟨?_, ?_, ?_, ?_, joined⟩
  · exact entered.trans (Nat.zero_add _)
  · exact converted.trans (Nat.zero_add _)
  · exact executed_eq.trans (Nat.zero_add _)
  · exact reported.trans (Nat.le_of_eq (Nat.zero_add _))

/-- The differences that a run tells are not cut off: its graph has only grown. -/
theorem run_growth :
    let before := builder.graph
    let after := (runEngine patterns tree builder).2.builder.graph
    (∃ added, after.edges = before.edges ++ added ∧ added.length = stats.edgesAdded) ∧
      stats.entitiesAdded = (after.ids.toFinset \ before.ids.toFinset).card ∧
      after.entities.length = before.entities.length + stats.entitiesAdded := by
  intro before after
  obtain ⟨final, _, counted, left⟩ := loop_of_run_ok succeeds
  have afterIs : after = final.progress.builder.graph := congrArg (·.builder.graph) left
  obtain ⟨added, grown⟩ := run_keeps_edges patterns tree builder
  have edges_eq : stats.edgesAdded = after.edges.length - before.edges.length := by
    rw [counted, afterIs]
    rfl
  have entities_eq : stats.entitiesAdded = after.entities.length - before.entities.length := by
    rw [counted, afterIs]
    rfl
  have edges_length : before.edges.length + added.length = after.edges.length := by
    rw [← List.length_append, grown]
  have entities_length : after.entities.length =
      before.entities.length + (after.ids.toFinset \ before.ids.toFinset).card := by
    have extended := (run_extends_ids patterns tree builder).length_eq
    rwa [EntityGraph.length_ids, EntityGraph.length_ids] at extended
  exact ⟨⟨added, grown.symm, by omega⟩, by omega, by omega⟩

/-- The statistics of a run that succeeds balance. Its matches are those of the search, and every
converter of each is either executed or skipped, those that are reported as skipped among the
latter. What the graph gains is what the statistics tell: an edge for every connection that is
executed and not reported as one of an entity to itself, behind the edges that were there, and an
entity for every id that is new. -/
theorem run_statistics_balance :
    let input : SearchInput := ⟨patterns, tree, some builder⟩
    let found := MatchNode.flattenAll input.search.1
    let executed := Run.executedIn input.tasks (input.initialState builder)
    let ended := (runEngine patterns tree builder).2
    let before := builder.graph
    let after := ended.builder.graph
    stats.matched = found.length ∧
      (∀ entered ∈ found, ∃ entry, patterns[entered.pattern]? = some entry ∧
        (Run.convertersOf patterns entered.pattern).length = entry.converters.length) ∧
      stats.executed + stats.skipped =
        (found.map fun entered => (Run.convertersOf patterns entered.pattern).length).sum ∧
      stats.executed = executed.length ∧
      ended.events.countP Event.skipsConverter ≤ stats.skipped ∧
      stats.edgesAdded + ended.events.countP Event.skipsSelfConnection =
        (executed.map (·.action)).countP Action.connects ∧
      (∃ added, after.edges = before.edges ++ added ∧ added.length = stats.edgesAdded) ∧
      stats.entitiesAdded = (after.ids.toFinset \ before.ids.toFinset).card ∧
      after.entities.length = before.entities.length + stats.entitiesAdded := by
  intro input found executed ended before after
  obtain ⟨matched_eq, converted_eq, executed_eq, skips_le, joined_eq⟩ := run_counters succeeds
  obtain ⟨⟨added, grown, added_eq⟩, entities⟩ := run_growth succeeds
  have connections : stats.edgesAdded + ended.events.countP Event.skipsSelfConnection =
      (executed.map (·.action)).countP Action.connects := by
    have longer : ended.edgeCount = before.edges.length + stats.edgesAdded := by
      rw [← added_eq, ← List.length_append, ← grown]
      rfl
    rw [longer, Nat.add_assoc] at joined_eq
    exact Nat.add_left_cancel joined_eq
  exact ⟨matched_eq.trans SearchInput.count_entered,
    fun _ listed => SearchInput.entry_of_found listed,
    converted_eq.trans SearchInput.count_conversions, executed_eq, skips_le, connections,
    ⟨added, grown, added_eq⟩, entities⟩

end Succeeding

/-- One node, matched once. Its converters define an entity, link it to another and to itself, lack a
capture, and are held back. -/
def everyOutcome : PatternSet :=
  let capture (name : String) : Expression := .mk name [.reference (.mk name false [])]
  let literal (text : String) : Expression := .mk text [.literal text]
  [⟨.node "f" [] [] [] false, [],
    [⟨.node (literal "m") (literal "package") none, []⟩,
      ⟨.connection (literal "m") (literal "n") .uses none none none, []⟩,
      ⟨.connection (literal "m") (literal "m") .uses none none none, []⟩,
      ⟨.node (capture "x") (literal "class") none, []⟩,
      ⟨.validateIdentifier (literal "m"), [.isBound "x"]⟩]⟩]

def singleNode : Tree := ⟨#[⟨0, "f", "", ⟨0, 0, 1, 0⟩, none, []⟩], some 0⟩

theorem every_outcome_counted :
    (runEngine everyOutcome singleNode .empty).1 = .ok ⟨1, 3, 2, 2, 1⟩ ∧
      let ended := (runEngine everyOutcome singleNode .empty).2
      ended.builder.graph.entities.length = 2 ∧ ended.builder.graph.edges.length = 1 ∧
        ended.events.countP Event.skipsConverter ≤ 2 ∧
        ended.events.countP Event.skipsSelfConnection = 1 := by
  have succeeds : (runEngine everyOutcome singleNode .empty).1 = .ok ⟨1, 3, 2, 2, 1⟩ := by
    decide +kernel
  obtain ⟨_, _, _, _, skips, connections, ⟨added, appended, count⟩, _, entities⟩ :=
    run_statistics_balance succeeds
  have connected : ((Run.executedIn (SearchInput.tasks ⟨everyOutcome, singleNode, some .empty⟩)
      (SearchInput.initialState ⟨everyOutcome, singleNode, some .empty⟩ .empty)).map
        (·.action)).countP Action.connects = 2 := by
    decide +kernel
  refine ⟨succeeds, entities, ?_, skips, ?_⟩
  · rw [appended]
    exact count
  · rw [connected] at connections
    exact Nat.add_left_cancel connections

end SyntaxGraph
