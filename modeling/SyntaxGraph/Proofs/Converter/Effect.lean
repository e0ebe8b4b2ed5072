import SyntaxGraph.Converter
import SyntaxGraph.Proofs.Expression.Absence

/-!
What a converter makes of the progress it finds. Everything is resolved against the builder as it
was found, and the one change comes last; a conversion is therefore a function that yields the next
progress or fails with nothing done.
-/

set_option autoImplicit false

namespace SyntaxGraph

def Progress.observe (progress : Progress) (event : Event) : Progress :=
  { progress with events := progress.events ++ [event] }

def GraphBuilder.define (builder : GraphBuilder) (definition : Definition) : GraphBuilder :=
  let graph := builder.graph.claim definition.id definition.kind (some builder.file)
    (some definition.span)
  { builder with graph := graph }.associate definition.node definition.id

def GraphBuilder.link (builder : GraphBuilder) (ends : Endpoints) (edge : EdgeType)
    (place : Span × Option String) : GraphBuilder :=
  let added : Edge := ⟨ends.source, ends.target, edge, builder.file, place.1⟩
  { builder with graph := builder.graph.connect added ends.sourceKind ends.targetKind place.2 }

/-- The next progress of an action, or why there is none. -/
def Action.effect (site : MatchSite) (progress : Progress) : Action → Except ResolveError Progress
  | .node name kind capture => do
      let definition ← resolveDefinition name kind capture (site.inGraph progress.builder)
      return { progress with builder := progress.builder.define definition }
  | .connection source target edge sourceKind targetKind position => do
      let ends ← resolveEndpoints source target sourceKind targetKind
        (site.inGraph progress.builder)
      if ends.isSelfConnection then return progress.observe (.selfConnectionSkipped ends.source)
      else
        let place ← resolvePlace position (site.inGraph progress.builder)
        return { progress with builder := progress.builder.link ends edge place }
  | .validateIdentifier identifier => do
      let text ← identifier.resolve (site.inGraph progress.builder)
      if progress.builder.mentions text then return progress
      else return progress.observe (.identifierNotFound text progress.builder.file)
  | .recordImport fields => do
      let texts ← resolveFields (site.inGraph progress.builder) fields.entries
      return { progress with builder := progress.builder.recordImport (StringMap.ofList texts) }

def Converter.effect (site : MatchSite) (progress : Progress) (converter : Converter) :
    Except ResolveError (Bool × Progress) := do
  if ← Predicate.allPass (site.inGraph progress.builder) converter.predicates then
    return (true, ← converter.action.effect site progress)
  else return (false, progress)

namespace Conversion

variable {Result Next : Type}

/-- How a conversion ends which has an effect, or has none and leaves what it found. -/
def settled (before : Progress) :
    Except ResolveError (Result × Progress) → Except ResolveError Result × Progress
  | .ok (result, after) => (.ok result, after)
  | .error cause => (.error cause, before)

/-- Reading changes nothing, and is all that can fail. -/
theorem run_reading_bind (site : MatchSite) (read : MatchContext → Except ResolveError Result)
    (next : Result → Conversion Next) (progress : Progress)
    (effect : Result → Except ResolveError (Next × Progress))
    (continues : ∀ result, (next result).run.run progress = settled progress (effect result)) :
    (reading site read >>= next).run.run progress =
      settled progress (read (site.inGraph progress.builder) >>= effect) := by
  have reads : (reading site read >>= next).run.run progress =
      (reading.liftExcept (read (site.inGraph progress.builder)) >>= next).run.run progress := rfl
  rw [reads]
  cases read (site.inGraph progress.builder) with
  | ok result => exact continues result
  | error cause => rfl

end Conversion

theorem Action.run_perform (site : MatchSite) (progress : Progress) (action : Action) :
    (action.perform site).run.run progress =
      Conversion.settled progress (((), ·) <$> action.effect site progress) := by
  cases action with
  | node name kind capture =>
      rw [Action.perform, Action.effect, map_bind]
      apply Conversion.run_reading_bind
      intro definition
      rfl
  | connection source target edge sourceKind targetKind position =>
      rw [Action.perform, Action.effect, map_bind]
      apply Conversion.run_reading_bind
      intro ends
      by_cases self : ends.isSelfConnection = true
      · rw [if_pos self, if_pos self]
        rfl
      · rw [if_neg self, if_neg self, map_bind]
        apply Conversion.run_reading_bind
        intro place
        rfl
  | validateIdentifier identifier =>
      rw [Action.perform, Action.effect, map_bind]
      apply Conversion.run_reading_bind
      intro text
      show (if progress.builder.mentions text = true then pure ()
        else Conversion.report _ : Conversion Unit).run.run progress = _
      by_cases mentioned : progress.builder.mentions text = true
      · rw [if_pos mentioned, if_pos mentioned]
        rfl
      · rw [if_neg mentioned, if_neg mentioned]
        rfl
  | recordImport fields =>
      rw [Action.perform, Action.effect, map_bind]
      apply Conversion.run_reading_bind
      intro texts
      rfl

theorem Converter.run_execute (site : MatchSite) (progress : Progress) (converter : Converter) :
    (converter.execute site).run.run progress =
      Conversion.settled progress (converter.effect site progress) := by
  rw [Converter.execute, Converter.effect]
  apply Conversion.run_reading_bind
  intro passed
  cases passed with
  | true =>
      rw [if_pos rfl, if_pos rfl, run_bind, Action.run_perform]
      cases converter.action.effect site progress with
      | ok after => rfl
      | error cause => rfl
  | false => rfl

-- Two builders

/-- Whatever an action resolves comes out the same in both builders. -/
inductive Action.SeesAlike (site : MatchSite) (left right : GraphBuilder) : Action → Prop
  | node {name kind : Expression} {capture : Option String}
      (definition_eq : resolveDefinition name kind capture (site.inGraph left) =
        resolveDefinition name kind capture (site.inGraph right)) :
      SeesAlike site left right (.node name kind capture)
  | connection {source target : Expression} {edge : EdgeType}
      {sourceKind targetKind : Option Expression} {position : Option String}
      (ends_eq : resolveEndpoints source target sourceKind targetKind (site.inGraph left) =
        resolveEndpoints source target sourceKind targetKind (site.inGraph right))
      (place_eq : resolvePlace position (site.inGraph left) =
        resolvePlace position (site.inGraph right)) :
      SeesAlike site left right (.connection source target edge sourceKind targetKind position)
  | validateIdentifier {identifier : Expression}
      (text_eq : identifier.resolve (site.inGraph left) = identifier.resolve (site.inGraph right)) :
      SeesAlike site left right (.validateIdentifier identifier)
  | recordImport {fields : StringMap Expression}
      (texts_eq : resolveFields (site.inGraph left) fields.entries =
        resolveFields (site.inGraph right) fields.entries) :
      SeesAlike site left right (.recordImport fields)

/-- Builders that are related stay so when the same is written to both. -/
structure KeptByWrites (related : GraphBuilder → GraphBuilder → Prop) : Prop where
  define : ∀ {left right : GraphBuilder}, related left right →
    ∀ definition, related (left.define definition) (right.define definition)
  link : ∀ {left right : GraphBuilder}, related left right →
    ∀ ends edge place, related (left.link ends edge place) (right.link ends edge place)
  recordImport : ∀ {left right : GraphBuilder}, related left right →
    ∀ record, related (left.recordImport record) (right.recordImport record)

variable {left right : Progress} {related : GraphBuilder → GraphBuilder → Prop}

theorem Action.SeesAlike.effect_alike {site : MatchSite} {action : Action}
    (sees : action.SeesAlike site left.builder right.builder) (kept : KeptByWrites related)
    (holds : related left.builder right.builder) :
    Alike (fun (left right : Progress) => related left.builder right.builder)
      (action.effect site left) (action.effect site right) := by
  cases sees with
  | node definition_eq =>
      rw [Action.effect, Action.effect, definition_eq]
      apply alike_of_same_bind
      intro definition
      exact kept.define holds definition
  | connection ends_eq place_eq =>
      rw [Action.effect, Action.effect, ends_eq, place_eq]
      apply alike_of_same_bind
      intro ends
      by_cases self : ends.isSelfConnection = true
      · rw [if_pos self, if_pos self]
        exact holds
      · rw [if_neg self, if_neg self]
        apply alike_of_same_bind
        intro place
        exact kept.link holds ends _ place
  | validateIdentifier text_eq =>
      rw [Action.effect, Action.effect, text_eq]
      apply alike_of_same_bind
      intro text
      split <;> split <;> exact holds
  | recordImport texts_eq =>
      rw [Action.effect, Action.effect, texts_eq]
      apply alike_of_same_bind
      intro texts
      exact kept.recordImport holds _

theorem Converter.effect_alike {site : MatchSite} {converter : Converter}
    (gates_eq : Predicate.allPass (site.inGraph left.builder) converter.predicates =
      Predicate.allPass (site.inGraph right.builder) converter.predicates)
    (sees : converter.action.SeesAlike site left.builder right.builder)
    (kept : KeptByWrites related) (holds : related left.builder right.builder) :
    Alike (fun (left right : Bool × Progress) =>
        left.1 = right.1 ∧ related left.2.builder right.2.builder)
      (converter.effect site left) (converter.effect site right) := by
  rw [Converter.effect, Converter.effect, gates_eq]
  apply alike_of_same_bind
  intro passed
  by_cases passes : passed = true
  · rw [if_pos passes, if_pos passes]
    exact (sees.effect_alike kept holds).bind fun _ _ after => ⟨rfl, after⟩
  · rw [if_neg passes, if_neg passes]
    exact ⟨rfl, holds⟩

-- Failures

/-- What a converter can fail for at a match that knows its nodes. -/
def Foreseen (cause : ResolveError) : Prop :=
  cause.isAbsence = true ∨ ∃ text, cause = .unknownEntityKind text

theorem LacksOnly.foreseen {Result : Type} {yields : Result → Prop}
    {outcome : Except ResolveError Result} (lacks : LacksOnly yields outcome) :
    Leads Foreseen yields outcome :=
  lacks.weaken (fun _ absence => Or.inl absence) fun _ good => good

variable {site : MatchSite} (known : site.Known)
include known

theorem resolve_foreseen (builder : GraphBuilder) (expression : Expression) :
    Leads Foreseen (fun _ => True) (expression.resolve (site.inGraph builder)) :=
  (resolve_lacks_only known expression).foreseen

theorem anchor_foreseen (capture : Option String) :
    Leads Foreseen (fun node => site.tree.contains node = true) (site.anchor capture) := by
  cases capture with
  | none => exact known.start_known
  | some name =>
      simp only [MatchSite.anchor]
      split
      · rename_i node bound
        exact known.captured_known name node bound
      · exact Or.inl rfl

omit known in
theorem span_foreseen {node : NodeId} (inside : site.tree.contains node = true) :
    Leads Foreseen (fun _ => True) (site.spanOf node) := by
  obtain ⟨found, issued⟩ := Tree.node_of_known inside
  unfold MatchSite.spanOf
  rw [issued]
  exact trivial

theorem kind_foreseen (builder : GraphBuilder) (expression : Expression) :
    Leads Foreseen (fun _ => True) (resolveKind (site.inGraph builder) expression) := by
  apply (resolve_foreseen known builder expression).bind
  intro text _
  split
  · exact trivial
  · exact Or.inr ⟨text, rfl⟩

theorem optional_kind_foreseen (builder : GraphBuilder) (expression : Option Expression) :
    Leads Foreseen (fun _ => True) (resolveOptionalKind (site.inGraph builder) expression) := by
  cases expression with
  | none => exact trivial
  | some expression => exact kind_foreseen known builder expression

theorem definition_foreseen (builder : GraphBuilder) (name kind : Expression)
    (capture : Option String) :
    Leads Foreseen (fun _ => True) (resolveDefinition name kind capture (site.inGraph builder)) := by
  apply (resolve_foreseen known builder name).bind
  intro _ _
  apply (kind_foreseen known builder kind).bind
  intro _ _
  apply (anchor_foreseen known capture).bind
  intro node inside
  exact (span_foreseen inside).bind fun _ _ => trivial

theorem endpoints_foreseen (builder : GraphBuilder) (source target : Expression)
    (sourceKind targetKind : Option Expression) :
    Leads Foreseen (fun _ => True)
      (resolveEndpoints source target sourceKind targetKind (site.inGraph builder)) := by
  apply (resolve_foreseen known builder source).bind
  intro _ _
  apply (resolve_foreseen known builder target).bind
  intro _ _
  apply (optional_kind_foreseen known builder sourceKind).bind
  intro _ _
  exact (optional_kind_foreseen known builder targetKind).bind fun _ _ => trivial

theorem place_foreseen (builder : GraphBuilder) (position : Option String) :
    Leads Foreseen (fun _ => True) (resolvePlace position (site.inGraph builder)) := by
  apply (anchor_foreseen known position).bind
  intro node inside
  have nearest : LacksOnly (fun _ => True) (site.inGraph builder).nearestAncestor :=
    nearest_ancestor_lacks_only known
  apply nearest.foreseen.bind
  intro _ _
  exact (span_foreseen inside).bind fun _ _ => trivial

theorem fields_foreseen (builder : GraphBuilder) (fields : List (String × Expression)) :
    Leads Foreseen (fun _ => True) (resolveFields (site.inGraph builder) fields) := by
  induction fields with
  | nil => exact trivial
  | cons field rest induction =>
      apply (resolve_foreseen known builder field.2).bind
      intro _ _
      exact induction.bind fun _ _ => trivial

theorem Action.effect_foreseen (progress : Progress) (action : Action) :
    Leads Foreseen (fun _ => True) (action.effect site progress) := by
  cases action with
  | node name kind capture =>
      exact (definition_foreseen known progress.builder name kind capture).bind fun _ _ => trivial
  | connection source target edge sourceKind targetKind position =>
      apply (endpoints_foreseen known progress.builder source target sourceKind targetKind).bind
      intro ends _
      split
      · exact trivial
      · exact (place_foreseen known progress.builder position).bind fun _ _ => trivial
  | validateIdentifier identifier =>
      apply (resolve_foreseen known progress.builder identifier).bind
      intro text _
      split <;> exact trivial
  | recordImport fields =>
      exact (fields_foreseen known progress.builder fields.entries).bind fun _ _ => trivial

theorem Converter.effect_foreseen (progress : Progress) (converter : Converter) :
    Leads Foreseen (fun _ => True) (converter.effect site progress) := by
  have gated : LacksOnly (fun _ => True)
      (Predicate.allPass (site.inGraph progress.builder) converter.predicates) :=
    all_pass_lacks_only known converter.predicates
  apply gated.foreseen.bind
  intro passed _
  split
  · exact (Action.effect_foreseen known progress converter.action).bind fun _ _ => trivial
  · exact trivial

end SyntaxGraph
