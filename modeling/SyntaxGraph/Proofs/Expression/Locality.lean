import SyntaxGraph.Proofs.Expression.Lookups

/-!
What expressions see of a builder. Apart from the two names that follow edges of the graph, the
class around a match and its superclass, an expression sees no more than which id each syntax node
of the current file stands for. Everything that a converter resolves is therefore the same in two
builders that agree on that, whatever else their graphs hold.
-/

set_option autoImplicit false

namespace SyntaxGraph

mutual

/-- The names that an expression refers to, also in arguments of calls. -/
def Expression.names : Expression → List String
  | .mk _ terms => termNames terms

def termNames : List Term → List String
  | [] => []
  | .literal _ :: rest => termNames rest
  | .reference reference :: rest => reference.names ++ termNames rest

def Reference.names : Reference → List String
  | .mk name _ calls => name :: callNames calls

def callNames : List DotCall → List String
  | [] => []
  | .mk _ arguments :: rest => argumentNames arguments ++ callNames rest

def argumentNames : List Expression → List String
  | [] => []
  | expression :: rest => expression.names ++ argumentNames rest

end

/-- Names that are looked up without following edges. -/
def StayLocal (names : List String) : Prop := "enclosing_class" ∉ names ∧ "superclass" ∉ names

/-- Every syntax node stands for the same id, or for none, in both builders. -/
def GraphBuilder.SameIndex (left right : GraphBuilder) : Prop :=
  ∀ node, (left.entityOf? node).map (·.id) = (right.entityOf? node).map (·.id)

mutual

theorem Expression.names_eq (expression : Expression) :
    expression.names = expression.allReferences.map Reference.name := by
  cases expression with
  | mk source terms =>
      rw [Expression.names, Expression.allReferences, term_names_eq terms]

theorem term_names_eq (terms : List Term) :
    termNames terms = (termReferences terms).map Reference.name := by
  match terms with
  | [] => rw [termNames, termReferences, List.map_nil]
  | .literal text :: rest => rw [termNames, termReferences, term_names_eq rest]
  | .reference reference :: rest =>
      rw [termNames, termReferences, List.map_append, Reference.names_eq reference,
        term_names_eq rest]

theorem Reference.names_eq (reference : Reference) :
    reference.names = reference.allReferences.map Reference.name := by
  cases reference with
  | mk name optional calls =>
      rw [Reference.names, Reference.allReferences, List.map_cons, call_names_eq calls]
      rfl

theorem call_names_eq (calls : List DotCall) :
    callNames calls = (callReferences calls).map Reference.name := by
  match calls with
  | [] => rw [callNames, callReferences, List.map_nil]
  | .mk name arguments :: rest =>
      rw [callNames, callReferences, List.map_append, argument_names_eq arguments,
        call_names_eq rest]

theorem argument_names_eq (expressions : List Expression) :
    argumentNames expressions = (argumentReferences expressions).map Reference.name := by
  match expressions with
  | [] => rw [argumentNames, argumentReferences, List.map_nil]
  | expression :: rest =>
      rw [argumentNames, argumentReferences, List.map_append, Expression.names_eq expression,
        argument_names_eq rest]

end

theorem StayLocal.follows_no_edges {names : List String} (stays : StayLocal names) {name : String}
    (listed : name ∈ names) : name ≠ "enclosing_class" ∧ name ≠ "superclass" :=
  ⟨fun same => stays.1 (same ▸ listed), fun same => stays.2 (same ▸ listed)⟩

/-- The expressions of a predicate; the name of a capture alone is none. -/
def Predicate.expressions : Predicate → List Expression
  | .equals left right => [left, right]
  | .endsWith value suffix => [value, suffix]
  | .contains value part => [value, part]
  | .fullMatch value _ _ => [value]
  | .anyOf value options => value :: options
  | .isBound _ => []
  | .not predicate => predicate.expressions

def Action.expressions : Action → List Expression
  | .node name kind _ => [name, kind]
  | .connection source target _ sourceKind targetKind _ =>
      source :: target :: (sourceKind.toList ++ targetKind.toList)
  | .validateIdentifier identifier => [identifier]
  | .recordImport fields => fields.entries.map (·.2)

def Converter.expressions (converter : Converter) : List Expression :=
  converter.predicates.flatMap Predicate.expressions ++ converter.action.expressions

def AllStayLocal (expressions : List Expression) : Prop :=
  ∀ expression ∈ expressions, StayLocal expression.names

theorem all_stay_local_cons {expression : Expression} {rest : List Expression} :
    AllStayLocal (expression :: rest) ↔ StayLocal expression.names ∧ AllStayLocal rest :=
  List.forall_mem_cons

theorem all_stay_local_append {first second : List Expression} :
    AllStayLocal (first ++ second) ↔ AllStayLocal first ∧ AllStayLocal second :=
  List.forall_mem_append

variable {left right : GraphBuilder} (same : left.SameIndex right) (site : MatchSite)
include same

theorem resolve_agrees (expression : Expression) (stays : StayLocal expression.names) :
    expression.resolve (site.inGraph left) = expression.resolve (site.inGraph right) := by
  apply Expression.SeesAlike.resolve_eq expression
  intro reference listed
  have named : reference.name ∈ expression.names :=
    expression.names_eq ▸ List.mem_map_of_mem listed
  constructor
  · apply lookup_agrees
    intro _
    exact special_agrees site reference.name (stays.follows_no_edges named)
      fun _ node _ => same node
  · exact fun _ node _ => same node

theorem any_equal_agrees (value : String) (options : List Expression)
    (stays : AllStayLocal options) :
    Predicate.anyEqual (site.inGraph left) value options =
      Predicate.anyEqual (site.inGraph right) value options := by
  induction options with
  | nil => rfl
  | cons option rest induction =>
      obtain ⟨first, later⟩ := all_stay_local_cons.1 stays
      rw [Predicate.anyEqual, Predicate.anyEqual, resolve_agrees same site option first,
        induction later]

theorem evaluate_agrees (predicate : Predicate) (stays : AllStayLocal predicate.expressions) :
    predicate.evaluate (site.inGraph left) = predicate.evaluate (site.inGraph right) := by
  have resolves := resolve_agrees same site
  induction predicate with
  | equals | endsWith | contains =>
      obtain ⟨first, later⟩ := all_stay_local_cons.1 stays
      have second := later _ (List.mem_singleton_self _)
      simp only [Predicate.evaluate, resolves _ first, resolves _ second]
  | fullMatch value pattern regex =>
      simp only [Predicate.evaluate, resolves _ (stays _ (List.mem_singleton_self _))]
  | anyOf value options =>
      obtain ⟨first, later⟩ := all_stay_local_cons.1 stays
      simp only [Predicate.evaluate, resolves _ first, any_equal_agrees same site _ options later]
  | isBound capture => rfl
  | not predicate induction => rw [Predicate.evaluate, Predicate.evaluate, induction stays]

theorem all_pass_agrees (predicates : List Predicate)
    (stays : AllStayLocal (predicates.flatMap Predicate.expressions)) :
    Predicate.allPass (site.inGraph left) predicates =
      Predicate.allPass (site.inGraph right) predicates := by
  induction predicates with
  | nil => rfl
  | cons predicate rest induction =>
      rw [List.flatMap_cons, all_stay_local_append] at stays
      rw [Predicate.allPass, Predicate.allPass, evaluate_agrees same site predicate stays.1,
        induction stays.2]

-- What converters resolve

theorem kind_agrees (expression : Expression) (stays : StayLocal expression.names) :
    resolveKind (site.inGraph left) expression = resolveKind (site.inGraph right) expression := by
  rw [resolveKind, resolveKind, resolve_agrees same site expression stays]

theorem optional_kind_agrees (expression : Option Expression)
    (stays : AllStayLocal expression.toList) :
    resolveOptionalKind (site.inGraph left) expression =
      resolveOptionalKind (site.inGraph right) expression := by
  cases expression with
  | none => rfl
  | some expression => exact kind_agrees same site expression (stays _ (List.mem_singleton_self _))

theorem definition_agrees (name kind : Expression) (capture : Option String)
    (stays : AllStayLocal [name, kind]) :
    resolveDefinition name kind capture (site.inGraph left) =
      resolveDefinition name kind capture (site.inGraph right) := by
  obtain ⟨first, later⟩ := all_stay_local_cons.1 stays
  rw [resolveDefinition, resolveDefinition, resolve_agrees same site name first,
    kind_agrees same site kind (later _ (List.mem_singleton_self _))]
  rfl

theorem endpoints_agree (source target : Expression) (sourceKind targetKind : Option Expression)
    (stays : AllStayLocal (source :: target :: (sourceKind.toList ++ targetKind.toList))) :
    resolveEndpoints source target sourceKind targetKind (site.inGraph left) =
      resolveEndpoints source target sourceKind targetKind (site.inGraph right) := by
  simp only [all_stay_local_cons, all_stay_local_append] at stays
  obtain ⟨first, second, third, fourth⟩ := stays
  rw [resolveEndpoints, resolveEndpoints, resolve_agrees same site source first,
    resolve_agrees same site target second, optional_kind_agrees same site sourceKind third,
    optional_kind_agrees same site targetKind fourth]

theorem place_agrees (position : Option String) :
    resolvePlace position (site.inGraph left) = resolvePlace position (site.inGraph right) := by
  show (site.anchor position >>= fun node => (site.inGraph left).nearestAncestor >>= fun found =>
      site.spanOf node >>= fun span => pure (span, found.map (·.id))) =
    (site.anchor position >>= fun node => (site.inGraph right).nearestAncestor >>= fun found =>
      site.spanOf node >>= fun span => pure (span, found.map (·.id)))
  apply bind_congr
  intro node
  exact nearest_ancestor_agrees site (·.id) (fun node _ => same node) fun found =>
    site.spanOf node >>= fun span => pure (span, found)

theorem fields_agree (fields : List (String × Expression))
    (stays : AllStayLocal (fields.map (·.2))) :
    resolveFields (site.inGraph left) fields = resolveFields (site.inGraph right) fields := by
  induction fields with
  | nil => rfl
  | cons field rest induction =>
      obtain ⟨first, later⟩ := all_stay_local_cons.1 stays
      rw [resolveFields, resolveFields, resolve_agrees same site field.2 first, induction later]

end SyntaxGraph
