import SyntaxGraph.Proofs.Converter.Writes
import SyntaxGraph.Proofs.Engine.Execution

/-!
What a run does to its builder: the writes of its converters, one task after another, up to where it
ends. A property that every write keeps is therefore kept by every run, also by one that fails.
-/

set_option autoImplicit false

namespace SyntaxGraph

namespace Run

variable {state next : RunState}

theorem builder_of_step {task : Task} (stepped : step state task = .ok next) :
    next.progress.builder = state.progress.builder ∨
      ∃ site pattern converter index, task = .convert site pattern converter index ∧
        converter.Writes site state.progress.builder next.progress.builder := by
  cases task with
  | enter =>
      cases stepped
      exact Or.inl rfl
  | convert site pattern converter index =>
      rw [step, Converter.run_execute] at stepped
      cases performed : converter.effect site state.progress with
      | ok result =>
          obtain ⟨passed, after⟩ := result
          have reached : next.progress = after := by
            rw [performed] at stepped
            cases passed <;> cases stepped <;> rfl
          rcases Converter.writes_of_effect performed with same | writes
          · rw [reached, same]
            exact Or.inl rfl
          · rw [reached]
            exact Or.inr ⟨site, pattern, converter, index, rfl, writes⟩
      | error cause =>
          rw [performed] at stepped
          left
          cases cause <;> cases stepped <;> rfl

theorem loop_keeps {good : GraphBuilder → Prop}
    (kept : ∀ site (action : Action) before after,
      action.Writes site before after → good before → good after)
    (tasks : List Task) (state : RunState) (holds : good state.progress.builder) :
    good (loop tasks state).2.progress.builder := by
  induction tasks generalizing state with
  | nil => exact holds
  | cons task rest induction =>
      rw [loop]
      cases stepped : step state task with
      | error error => exact holds
      | ok next =>
          apply induction next
          rcases builder_of_step stepped with same | ⟨site, _, converter, _, _, writes⟩
          · rw [same]
            exact holds
          · exact kept site converter.action _ _ writes.2 holds

end Run

def SearchInput.initialState (input : SearchInput) (builder : GraphBuilder) : RunState :=
  ⟨⟨builder, input.search.2⟩, .zero⟩

theorem run_engine_eq (patterns : PatternSet) (tree : Tree) (builder : GraphBuilder) :
    let input : SearchInput := ⟨patterns, tree, some builder⟩
    let ended := Run.loop input.tasks (input.initialState builder)
    runEngine patterns tree builder =
      (ended.1.map fun _ => SearchInput.statsSince ⟨builder, input.search.2⟩ ended.2,
        ended.2.progress) := by
  intro input ended
  have sameTasks : Run.forestTasks patterns tree [] input.search.1 = input.tasks :=
    @SearchInput.forest_tasks_judged input
  have walked : (Run.executeForest patterns tree [] input.search.1).run.run
      ⟨⟨builder, input.search.2⟩, .zero⟩ = ended := by
    rw [Run.does_execute_forest, sameTasks]
    rfl
  show execute patterns tree input.search.1 ⟨builder, input.search.2⟩ = _
  rw [execute, walked]
  rfl

theorem loop_of_run_ok {patterns : PatternSet} {tree : Tree} {builder : GraphBuilder}
    {stats : ExecutionStats} (succeeds : (runEngine patterns tree builder).1 = .ok stats) :
    let input : SearchInput := ⟨patterns, tree, some builder⟩
    ∃ final, Run.loop input.tasks (input.initialState builder) = (.ok (), final) ∧
      stats = SearchInput.statsSince ⟨builder, input.search.2⟩ final ∧
      (runEngine patterns tree builder).2 = final.progress := by
  intro input
  rw [run_engine_eq] at succeeds ⊢
  cases looped : Run.loop input.tasks (input.initialState builder) with
  | mk outcome final =>
      rw [looped] at succeeds
      cases outcome with
      | ok done =>
          cases succeeds
          exact ⟨final, rfl, rfl, rfl⟩
      | error error => cases succeeds

theorem run_of_loop_ok {patterns : PatternSet} {tree : Tree} {builder : GraphBuilder}
    {final : RunState}
    (ended : Run.loop (SearchInput.tasks ⟨patterns, tree, some builder⟩)
      (SearchInput.initialState ⟨patterns, tree, some builder⟩ builder) = (.ok (), final)) :
    runEngine patterns tree builder =
      (.ok (SearchInput.statsSince
        ⟨builder, (SearchInput.search ⟨patterns, tree, some builder⟩).2⟩ final), final.progress) := by
  rw [run_engine_eq, ended]
  rfl

theorem run_engine_keeps {good : GraphBuilder → Prop}
    (kept : ∀ site (action : Action) before after,
      action.Writes site before after → good before → good after)
    (patterns : PatternSet) (tree : Tree) {builder : GraphBuilder} (holds : good builder) :
    good (runEngine patterns tree builder).2.builder := by
  rw [run_engine_eq]
  exact Run.loop_keeps kept _ _ holds

end SyntaxGraph
