import SyntaxGraph.Predicate
import SyntaxGraph.Proofs.Outcome
import SyntaxGraph.Proofs.Tree.Links

/-!
How resolving can fail. At a match that binds nodes of its own tree only, every error of an
expression or a predicate is that something is absent: a capture, an enclosing entity, or the entity
of a node. Of the two errors that remain, one is a kind which does not read, which only converters
ask for, and the other a node which the tree never issued, which no search binds.
-/

set_option autoImplicit false

namespace SyntaxGraph

/-- The start and everything captured are nodes of the tree. -/
structure MatchSite.Known (site : MatchSite) : Prop where
  start_known : site.tree.contains site.start = true
  captured_known : ∀ name node, site.captures.find? name = some node →
    site.tree.contains node = true

def Value.Known (tree : Tree) : Value → Prop
  | .node id => tree.contains id = true
  | .text _ | .list _ | .entity _ => True

def Value.IsDetached : Value → Prop
  | .node _ => False
  | .text _ | .list _ | .entity _ => True

theorem Value.IsDetached.known {value : Value} (detached : value.IsDetached) (tree : Tree) :
    value.Known tree := by
  cases value with
  | node id => exact detached.elim
  | text | list | entity => exact trivial

theorem Value.render_known {tree : Tree} {value : Value} (known : value.Known tree) :
    ∃ text, value.render tree = .ok text := by
  cases value with
  | text | list | entity => exact ⟨_, rfl⟩
  | node id =>
      obtain ⟨found, same⟩ := Tree.node_of_known known
      refine ⟨found.text, ?_⟩
      rw [render, Tree.text?, same]
      rfl

/-- An absence, or a node that the tree never issued at a match that binds one. -/
def MatchContext.Misses (context : MatchContext) (cause : ResolveError) : Prop :=
  cause.isAbsence = true ∨ ¬context.toMatchSite.Known ∧ ∃ node, cause = .unknownNode node

abbrev MissesOnly (context : MatchContext) {Result : Type} :
    (yields : Result → Prop) → Except ResolveError Result → Prop :=
  Leads context.Misses

/-- The value is no unknown node, unless the match binds one. -/
def MatchContext.Fits (context : MatchContext) (value : Value) : Prop :=
  context.toMatchSite.Known → value.Known context.tree

variable {context : MatchContext}

theorem MatchContext.misses_unknown {node : NodeId}
    (unknown : context.toMatchSite.Known → context.tree.contains node = true)
    (unissued : ¬context.tree.contains node = true) : context.Misses (.unknownNode node) :=
  Or.inr ⟨fun known => unissued (unknown known), node, rfl⟩

theorem render_misses_only {value : Value} (fits : context.Fits value) :
    MissesOnly context (fun _ => True) (value.render context.tree) := by
  by_cases known : value.Known context.tree
  · obtain ⟨text, rendered⟩ := Value.render_known known
    rw [rendered]
    exact trivial
  · cases value with
    | text | list | entity => exact absurd trivial known
    | node id =>
        rw [Value.render, Tree.text?, Tree.node_of_unknown known]
        exact MatchContext.misses_unknown fits known

theorem format_values_misses_only {values : List Value}
    (fit : ∀ value ∈ values, context.Fits value) :
    MissesOnly context (fun _ => True) (formatValues context.tree values) :=
  (Leads.mapM fun value listed => render_misses_only (fit value listed)).bind fun _ _ => trivial

theorem nearest_ancestor_misses_only (context : MatchContext) :
    MissesOnly context (fun _ => True) context.nearestAncestor := by
  unfold MatchContext.nearestAncestor
  split
  · split
    · exact trivial
    · rename_i unissued
      exact MatchContext.misses_unknown MatchSite.Known.start_known unissued
  · exact trivial

theorem enclosing_class_misses_only (context : MatchContext) :
    MissesOnly context (fun _ => True) context.enclosingClass := by
  unfold MatchContext.enclosingClass
  split
  · exact trivial
  · split
    · exact trivial
    · exact (nearest_ancestor_misses_only context).bind fun _ _ => trivial

theorem require_entity_misses_only {cause : ResolveError} (absence : cause.isAbsence = true)
    (entity : Option Entity) :
    MissesOnly context context.Fits (MatchContext.requireEntity cause entity) := by
  cases entity with
  | none => exact Or.inl absence
  | some entity => exact fun _ => trivial

theorem special_misses_only (context : MatchContext) (name : String) :
    MissesOnly context context.Fits (context.special name) := by
  unfold MatchContext.special
  split
  · exact (nearest_ancestor_misses_only context).bind fun _ _ => require_entity_misses_only rfl _
  · exact fun known => known.start_known
  · exact (enclosing_class_misses_only context).bind fun _ _ => require_entity_misses_only rfl _
  · exact (enclosing_class_misses_only context).bind fun _ _ => require_entity_misses_only rfl _
  · exact Or.inl rfl

theorem lookup_misses_only (context : MatchContext) (name : String) :
    MissesOnly context context.Fits (context.lookup name) := by
  unfold MatchContext.lookup
  split
  · rename_i node bound
    exact fun known => known.captured_known name node bound
  · exact special_misses_only context name

theorem text_call_detached {name : String} {arguments : List String} {call : String → Value}
    (found : textCall? name arguments = some call) (text : String) : (call text).IsDetached := by
  unfold textCall? at found
  split at found
  · cases found
    dsimp only
    split <;> exact trivial
  · cases found
    exact trivial
  · cases found
    dsimp only
    split <;> exact trivial
  · cases found

theorem call_on_text_misses_only {value : Value} (fits : context.Fits value) (name : String)
    (arguments : List String) :
    MissesOnly context context.Fits (callOnText context.tree value name arguments) := by
  unfold callOnText
  split
  · rename_i call found
    exact (render_misses_only fits).bind fun text _ _ => (text_call_detached found text).known _
  · exact fits

theorem apply_call_misses_only (capture : String) {value : Value} (fits : context.Fits value)
    (name : String) (arguments : List String) :
    MissesOnly context context.Fits (applyCall context capture value name arguments) := by
  have onText := call_on_text_misses_only fits name arguments
  unfold applyCall
  split
  · split
    · exact fun _ => trivial
    · exact onText
  · split
    · split
      · exact fun _ => trivial
      · exact Or.inl rfl
    · exact onText
  · exact onText
  · exact onText

mutual

theorem resolve_misses_only (context : MatchContext) (expression : Expression) :
    MissesOnly context (fun _ => True) (expression.resolve context) := by
  cases expression with
  | mk source terms =>
      rw [Expression.resolve]
      exact (term_values_misses_only context terms).bind fun _ => format_values_misses_only

theorem term_values_misses_only (context : MatchContext) (terms : List Term) :
    MissesOnly context (fun values => ∀ value ∈ values, context.Fits value)
      (termValues context terms) := by
  match terms with
  | [] =>
      rw [termValues]
      exact fun _ member => absurd member List.not_mem_nil
  | .literal text :: rest =>
      rw [termValues]
      apply (term_values_misses_only context rest).bind
      intro values fit
      exact List.forall_mem_cons.2 ⟨fun _ => trivial, fit⟩
  | .reference reference :: rest =>
      have first := reference_misses_only context reference
      have later := term_values_misses_only context rest
      rw [termValues]
      split
      · rename_i value found
        rw [found] at first
        apply later.bind
        intro values fit
        exact List.forall_mem_cons.2 ⟨first, fit⟩
      · rename_i cause raised
        split
        · exact later
        · exact first.error_of_eq raised

theorem reference_misses_only (context : MatchContext) (reference : Reference) :
    MissesOnly context context.Fits (Reference.value context reference) := by
  cases reference with
  | mk name optional calls =>
      rw [Reference.value]
      apply (lookup_misses_only context name).bind
      intro value fits
      exact apply_calls_misses_only name fits calls

theorem apply_calls_misses_only {context : MatchContext} (capture : String) {value : Value}
    (fits : context.Fits value) (calls : List DotCall) :
    MissesOnly context context.Fits (applyCalls context capture value calls) := by
  match calls with
  | [] =>
      rw [applyCalls]
      exact fits
  | .mk name arguments :: rest =>
      rw [applyCalls]
      apply (resolve_all_misses_only context arguments).bind
      intro texts _
      apply (apply_call_misses_only capture fits name texts).bind
      intro next nextFits
      exact apply_calls_misses_only capture nextFits rest

theorem resolve_all_misses_only (context : MatchContext) (expressions : List Expression) :
    MissesOnly context (fun _ => True) (resolveAll context expressions) := by
  match expressions with
  | [] =>
      rw [resolveAll]
      exact trivial
  | expression :: rest =>
      rw [resolveAll]
      apply (resolve_misses_only context expression).bind
      intro _ _
      exact (resolve_all_misses_only context rest).bind fun _ _ => trivial

end

/-- Values are put into a text when all of them are there, and one cannot be only if it is a node
that the tree never issued. -/
theorem unknown_of_format {tree : Tree} {values : List Value} {cause : ResolveError}
    (raised : formatValues tree values = .error cause) : ∃ node, cause = .unknownNode node := by
  have rendered : ∀ value : Value, Leads (fun cause => ∃ node, cause = .unknownNode node)
      (fun _ => True) (value.render tree) := by
    intro value
    cases value with
    | text | list | entity => exact trivial
    | node id =>
        rw [Value.render]
        split
        · exact trivial
        · exact ⟨id, rfl⟩
  have formatted : Leads (fun cause => ∃ node, cause = .unknownNode node) (fun _ => True)
      (formatValues tree values) :=
    (Leads.mapM fun value _ => rendered value).bind fun _ _ => trivial
  exact formatted.error_of_eq raised

theorem Expression.resolve_eq (expression : Expression) (context : MatchContext) :
    expression.resolve context = expression.values context >>= formatValues context.tree := by
  obtain ⟨source, terms⟩ := expression
  rw [Expression.resolve]
  rfl

abbrev LacksOnly {Result : Type} : (yields : Result → Prop) → Except ResolveError Result → Prop :=
  Leads fun cause => cause.isAbsence = true

variable (known : context.toMatchSite.Known)
include known

theorem MissesOnly.lacks_only {Result : Type} {yields : Result → Prop}
    {outcome : Except ResolveError Result} (misses : MissesOnly context yields outcome) :
    LacksOnly yields outcome := by
  apply misses.weaken
  · rintro cause (absence | ⟨unknown, _⟩)
    · exact absence
    · exact absurd known unknown
  · exact fun _ yielded => yielded

theorem resolve_lacks_only (expression : Expression) :
    LacksOnly (fun _ => True) (expression.resolve context) :=
  (resolve_misses_only context expression).lacks_only known

theorem nearest_ancestor_lacks_only : LacksOnly (fun _ => True) context.nearestAncestor :=
  (nearest_ancestor_misses_only context).lacks_only known

theorem any_equal_lacks_only (value : String) (options : List Expression) :
    LacksOnly (fun _ => True) (Predicate.anyEqual context value options) := by
  induction options with
  | nil => exact trivial
  | cons option rest induction =>
      rw [Predicate.anyEqual]
      apply (resolve_lacks_only known option).bind
      intro text _
      split
      · exact trivial
      · exact induction

theorem evaluate_lacks_only (predicate : Predicate) :
    LacksOnly (fun _ => True) (predicate.evaluate context) := by
  have resolves := resolve_lacks_only known
  induction predicate with
  | equals left right => exact (resolves left).bind fun _ _ => (resolves right).bind fun _ _ => trivial
  | endsWith value suffix =>
      exact (resolves value).bind fun _ _ => (resolves suffix).bind fun _ _ => trivial
  | contains value part =>
      exact (resolves value).bind fun _ _ => (resolves part).bind fun _ _ => trivial
  | fullMatch value pattern regex => exact (resolves value).bind fun _ _ => trivial
  | anyOf value options =>
      exact (resolves value).bind fun text _ => any_equal_lacks_only known text options
  | isBound capture => exact trivial
  | not predicate induction =>
      rw [Predicate.evaluate]
      cases evaluated : predicate.evaluate context with
      | ok passed => exact trivial
      | error cause => exact induction.error_of_eq evaluated

theorem all_pass_lacks_only (predicates : List Predicate) :
    LacksOnly (fun _ => True) (Predicate.allPass context predicates) := by
  induction predicates with
  | nil => exact trivial
  | cons predicate rest induction =>
      rw [Predicate.allPass]
      apply (evaluate_lacks_only known predicate).bind
      intro passed _
      split
      · exact induction
      · exact trivial

end SyntaxGraph
