import SyntaxGraph.Proofs.Converter.Effect

/-!
All that a converter can do to a builder. It defines one entity, links two, records one import, or
does nothing; what it writes was resolved in the builder as it was found. It writes or reports, never
both, and where it fails or is held back it has done neither.
-/

set_option autoImplicit false

namespace SyntaxGraph

/-- An action that succeeds at a match leads from one builder to another. -/
inductive Action.Writes (site : MatchSite) (before : GraphBuilder) : Action → GraphBuilder → Prop
  | define {name kind : Expression} {capture : Option String} (definition : Definition)
      (resolved : resolveDefinition name kind capture (site.inGraph before) = .ok definition) :
      Writes site before (.node name kind capture) (before.define definition)
  | link {source target : Expression} {edge : EdgeType} {sourceKind targetKind : Option Expression}
      {position : Option String} (ends : Endpoints) (place : Span × Option String)
      (resolved : resolveEndpoints source target sourceKind targetKind (site.inGraph before) =
        .ok ends)
      (placed : resolvePlace position (site.inGraph before) = .ok place) :
      Writes site before (.connection source target edge sourceKind targetKind position)
        (before.link ends edge place)
  | skipSelf {source target : Expression} {edge : EdgeType}
      {sourceKind targetKind : Option Expression} {position : Option String} :
      Writes site before (.connection source target edge sourceKind targetKind position) before
  | validate {identifier : Expression} : Writes site before (.validateIdentifier identifier) before
  | recordImport {fields : StringMap Expression} (texts : List (String × String)) :
      Writes site before (.recordImport fields) (before.recordImport (StringMap.ofList texts))

def Converter.Writes (site : MatchSite) (before : GraphBuilder) (converter : Converter)
    (after : GraphBuilder) : Prop :=
  Predicate.allPass (site.inGraph before) converter.predicates = .ok true ∧
    converter.action.Writes site before after

theorem Action.Writes.builder_of_validate {site : MatchSite} {before after : GraphBuilder}
    {identifier : Expression}
    (writes : Action.Writes site before (.validateIdentifier identifier) after) : after = before := by
  cases writes
  rfl

variable {site : MatchSite} {progress after : Progress}

theorem Action.writes_of_effect {action : Action}
    (performed : action.effect site progress = .ok after) :
    action.Writes site progress.builder after.builder := by
  cases action with
  | node name kind capture =>
      obtain ⟨definition, resolved, same⟩ := exists_of_bind_ok performed
      cases same
      exact .define definition resolved
  | connection source target edge sourceKind targetKind position =>
      obtain ⟨ends, resolved, continued⟩ := exists_of_bind_ok performed
      by_cases self : ends.isSelfConnection = true
      · rw [if_pos self] at continued
        cases continued
        exact .skipSelf
      · rw [if_neg self] at continued
        obtain ⟨place, placed, same⟩ := exists_of_bind_ok continued
        cases same
        exact .link ends place resolved placed
  | validateIdentifier identifier =>
      obtain ⟨text, resolved, continued⟩ := exists_of_bind_ok performed
      by_cases mentioned : progress.builder.mentions text = true
      · rw [if_pos mentioned] at continued
        cases continued
        exact .validate
      · rw [if_neg mentioned] at continued
        cases continued
        exact .validate
  | recordImport fields =>
      obtain ⟨texts, resolved, same⟩ := exists_of_bind_ok performed
      cases same
      exact .recordImport texts

theorem Converter.writes_of_effect {converter : Converter} {passed : Bool}
    (performed : converter.effect site progress = .ok (passed, after)) :
    after = progress ∨ converter.Writes site progress.builder after.builder := by
  obtain ⟨gate, gated, continued⟩ := exists_of_bind_ok performed
  cases gate with
  | true =>
      rw [if_pos rfl] at continued
      obtain ⟨next, acted, same⟩ := exists_of_bind_ok continued
      cases same
      exact Or.inr ⟨gated, Action.writes_of_effect acted⟩
  | false =>
      cases continued
      exact Or.inl rfl

/-- An action that succeeds reports nothing, or has nothing to write. -/
theorem Action.reports_of_effect {action : Action}
    (performed : action.effect site progress = .ok after) :
    after.events = progress.events ∨ ∃ event, after = progress.observe event := by
  cases action with
  | node name kind capture =>
      obtain ⟨_, _, same⟩ := exists_of_bind_ok performed
      cases same
      exact Or.inl rfl
  | connection source target edge sourceKind targetKind position =>
      obtain ⟨ends, _, continued⟩ := exists_of_bind_ok performed
      by_cases self : ends.isSelfConnection = true
      · rw [if_pos self] at continued
        cases continued
        exact Or.inr ⟨_, rfl⟩
      · rw [if_neg self] at continued
        obtain ⟨_, _, same⟩ := exists_of_bind_ok continued
        cases same
        exact Or.inl rfl
  | validateIdentifier identifier =>
      obtain ⟨text, _, continued⟩ := exists_of_bind_ok performed
      by_cases mentioned : progress.builder.mentions text = true
      · rw [if_pos mentioned] at continued
        cases continued
        exact Or.inl rfl
      · rw [if_neg mentioned] at continued
        cases continued
        exact Or.inr ⟨_, rfl⟩
  | recordImport fields =>
      obtain ⟨_, _, same⟩ := exists_of_bind_ok performed
      cases same
      exact Or.inl rfl

/-- How the execution of a converter ends, and the progress that it leaves. -/
inductive Converter.Ends (site : MatchSite) (before : Progress) (converter : Converter) :
    Except ResolveError Bool → Progress → Prop
  | failed (cause : ResolveError) : Ends site before converter (.error cause) before
  | heldBack (gated : Predicate.allPass (site.inGraph before.builder) converter.predicates =
      .ok false) : Ends site before converter (.ok false) before
  | performed {after : Progress} (writes : converter.Writes site before.builder after.builder)
      (reports : after.events = before.events ∨ ∃ event, after = before.observe event) :
      Ends site before converter (.ok true) after

theorem Converter.execute_ends (site : MatchSite) (before : Progress) (converter : Converter) :
    converter.Ends site before ((converter.execute site).run.run before).1
      ((converter.execute site).run.run before).2 := by
  rw [run_execute]
  cases executed : converter.effect site before with
  | error cause => exact .failed cause
  | ok result =>
      obtain ⟨gate, gated, continued⟩ := exists_of_bind_ok executed
      cases gate with
      | true =>
          rw [if_pos rfl] at continued
          obtain ⟨after, acted, same⟩ := exists_of_bind_ok continued
          cases same
          exact .performed ⟨gated, Action.writes_of_effect acted⟩ (Action.reports_of_effect acted)
      | false =>
          cases continued
          exact .heldBack gated

/-- A converter that fails, or that its predicates hold back, has changed nothing and reported
nothing. One that runs writes what its action writes; if it reports anything, as connections from an
entity to itself do, that one event is all that has changed. Validating writes nothing. -/
theorem Converter.execute_all_or_nothing (site : MatchSite) (before : Progress)
    (converter : Converter) :
    let outcome := ((converter.execute site).run.run before).1
    let after := ((converter.execute site).run.run before).2
    ((∃ cause, outcome = .error cause) ∨ outcome = .ok false → after = before) ∧
      (outcome = .ok false →
        Predicate.allPass (site.inGraph before.builder) converter.predicates = .ok false) ∧
      (outcome = .ok true → converter.Writes site before.builder after.builder) ∧
      (after.events = before.events ∨ ∃ event, after = before.observe event) ∧
      ∀ identifier, converter.action = .validateIdentifier identifier →
        after.builder = before.builder := by
  intro outcome after
  have ends : converter.Ends site before outcome after := converter.execute_ends site before
  generalize outcome = ending at ends ⊢
  generalize after = left at ends ⊢
  cases ends with
  | failed cause => simp
  | heldBack gated => simp [gated]
  | performed writes reports =>
      refine ⟨by simp, by simp, fun _ => writes, reports, ?_⟩
      intro identifier validates
      have acted := writes.2
      rw [validates] at acted
      exact acted.builder_of_validate

end SyntaxGraph
