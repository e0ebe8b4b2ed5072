import SyntaxGraph.Document.Converter
import SyntaxGraph.Proofs.Converter.Writes
import SyntaxGraph.Proofs.Expression.LooksPast
import SyntaxGraph.Regex.Compile

/-!
Macro converters resolve their name twice: for the entity that they define, and for the end of the
edge that they add. The definition comes between the two, so the edge meets the entity where the
name looks past the definition, and can miss it where the name does not.
-/

set_option autoImplicit false

namespace SyntaxGraph

/-- The name of a macro, and the end of its edge that the name is written at. -/
def ConverterDraft.definedEnd : ConverterDraft → Option (String × (Edge → String))
  | .nodeWithParent name _ _ _ _ => some (name, Edge.target)
  | .argumentConnection name _ _ _ _ _ => some (name, Edge.source)
  | _ => none

/-- The converter defines the entity that an expression names. -/
def Converter.DefinesNamed (converter : Converter) (expression : Expression) : Prop :=
  ∃ kind capture, converter.action = .node expression kind capture

/-- The converter adds edges with an expression at one end. -/
def Converter.LinksAt (converter : Converter) (expression : Expression) (endOf : Edge → String) :
    Prop :=
  ∃ source target edge sourceKind targetKind position,
    converter.action = .connection source target edge sourceKind targetKind position ∧
      (endOf = Edge.source ∧ source = expression ∨ endOf = Edge.target ∧ target = expression)

/-- Both halves of a macro have run: the first has claimed an entity for a syntax node, and the
second has added an edge. -/
structure MacroRun (site : MatchSite) (definition link : Converter)
    (before middle after : Progress) (node : NodeId) (id : String) (added : Edge) : Prop where
  defined : (definition.execute site).run.run before = (.ok true, middle)
  claimed : middle.builder.associations = (node, id) :: before.builder.associations
  linked : (link.execute site).run.run middle = (.ok true, after)
  gained : after.builder.graph.edges = middle.builder.graph.edges ++ [added]

theorem MacroRun.of_outcomes {site : MatchSite} {definition link : Converter} {before : Progress}
    {node : NodeId} {id : String} {added : Edge}
    (defined : ((definition.execute site).run.run before).1 = .ok true)
    (claimed : ((definition.execute site).run.run before).2.builder.associations =
      (node, id) :: before.builder.associations)
    (linked : ((link.execute site).run.run ((definition.execute site).run.run before).2).1 =
      .ok true)
    (gained : ((link.execute site).run.run
        ((definition.execute site).run.run before).2).2.builder.graph.edges =
      ((definition.execute site).run.run before).2.builder.graph.edges ++ [added]) :
    ∃ middle after, MacroRun site definition link before middle after node id added :=
  ⟨_, _, Prod.ext defined rfl, claimed, Prod.ext linked rfl, gained⟩

-- What a checked macro stands for

theorem parsed_of_check {source : String} {expression : Expression}
    (checked : checkExpression source = .ok expression) :
    Expression.parse source = .ok expression := by
  unfold checkExpression at checked
  cases parsed : Expression.parse source with
  | ok found =>
      rw [parsed] at checked
      cases checked
      rfl
  | error error =>
      rw [parsed] at checked
      cases checked

namespace ConverterDraft

theorem action_of_check_node {name kind : String} {capture : Option String} {action : Action}
    (checked : checkNode name kind capture = .ok action) :
    ∃ expression kindExpression, Expression.parse name = .ok expression ∧
      action = .node expression kindExpression (capture.map baseCaptureName) := by
  obtain ⟨expression, named, continued⟩ := exists_of_bind_ok checked
  obtain ⟨kindExpression, _, built⟩ := exists_of_bind_ok continued
  cases built
  exact ⟨expression, kindExpression, parsed_of_check named, rfl⟩

theorem action_of_check_connection {source target : String} {edge : Option String}
    {fallback : EdgeType} {sourceKind targetKind position : Option String} {action : Action}
    (checked : checkConnection source target edge fallback sourceKind targetKind position =
      .ok action) :
    ∃ sourceExpression targetExpression type kindOfSource kindOfTarget,
      Expression.parse source = .ok sourceExpression ∧
        Expression.parse target = .ok targetExpression ∧
          action = .connection sourceExpression targetExpression type kindOfSource kindOfTarget
            (position.map baseCaptureName) := by
  obtain ⟨sourceExpression, starts, continued⟩ := exists_of_bind_ok checked
  obtain ⟨targetExpression, ends, continued⟩ := exists_of_bind_ok continued
  obtain ⟨type, _, continued⟩ := exists_of_bind_ok continued
  obtain ⟨kindOfSource, _, continued⟩ := exists_of_bind_ok continued
  obtain ⟨kindOfTarget, _, built⟩ := exists_of_bind_ok continued
  cases built
  exact ⟨sourceExpression, targetExpression, type, kindOfSource, kindOfTarget,
    parsed_of_check starts, parsed_of_check ends, rfl⟩

theorem halves_of_check {engine : RegexEngine} {draft : ConverterDraft} {name : String} {endOf : Edge → String}
    {converters : List Converter} (isMacro : draft.definedEnd = some (name, endOf))
    (checked : draft.check engine = .ok converters) :
    ∃ expression definition link, Expression.parse name = .ok expression ∧
      converters = [definition, link] ∧ definition.DefinesNamed expression ∧
        link.LinksAt expression endOf := by
  cases draft with
  | node | connection | validateIdentifier | recordImport => cases isMacro
  | nodeWithParent written kind capture edge predicates =>
      cases isMacro
      obtain ⟨gates, _, continued⟩ := exists_of_bind_ok checked
      obtain ⟨defining, checkedNode, continued⟩ := exists_of_bind_ok continued
      obtain ⟨linking, checkedLink, built⟩ := exists_of_bind_ok continued
      cases built
      obtain ⟨expression, kindExpression, parsed, rfl⟩ := action_of_check_node checkedNode
      obtain ⟨source, target, type, _, _, _, same, rfl⟩ := action_of_check_connection checkedLink
      rw [parsed] at same
      cases same
      exact ⟨expression, _, _, parsed, rfl, ⟨_, _, rfl⟩, _, _, _, _, _, _, rfl, Or.inr ⟨rfl, rfl⟩⟩
  | argumentConnection written kind target targetKind edge predicates =>
      cases isMacro
      obtain ⟨gates, _, continued⟩ := exists_of_bind_ok checked
      obtain ⟨defining, checkedNode, continued⟩ := exists_of_bind_ok continued
      obtain ⟨linking, checkedLink, built⟩ := exists_of_bind_ok continued
      cases built
      obtain ⟨expression, kindExpression, parsed, rfl⟩ := action_of_check_node checkedNode
      obtain ⟨source, target, type, _, _, same, _, rfl⟩ := action_of_check_connection checkedLink
      rw [parsed] at same
      cases same
      exact ⟨expression, _, _, parsed, rfl, ⟨_, _, rfl⟩, _, _, _, _, _, _, rfl, Or.inl ⟨rfl, rfl⟩⟩

end ConverterDraft

-- What the halves write

theorem id_of_definition {name kind : Expression} {capture : Option String}
    {context : MatchContext} {definition : Definition}
    (resolved : resolveDefinition name kind capture context = .ok definition) :
    name.resolve context = .ok definition.id := by
  obtain ⟨id, named, continued⟩ := exists_of_bind_ok resolved
  obtain ⟨_, _, continued⟩ := exists_of_bind_ok continued
  obtain ⟨_, _, continued⟩ := exists_of_bind_ok continued
  obtain ⟨_, _, built⟩ := exists_of_bind_ok continued
  cases built
  exact named

theorem ids_of_endpoints {source target : Expression} {sourceKind targetKind : Option Expression}
    {context : MatchContext} {ends : Endpoints}
    (resolved : resolveEndpoints source target sourceKind targetKind context = .ok ends) :
    source.resolve context = .ok ends.source ∧ target.resolve context = .ok ends.target := by
  obtain ⟨_, starts, continued⟩ := exists_of_bind_ok resolved
  obtain ⟨_, finishes, continued⟩ := exists_of_bind_ok continued
  obtain ⟨_, _, continued⟩ := exists_of_bind_ok continued
  obtain ⟨_, _, built⟩ := exists_of_bind_ok continued
  cases built
  exact ⟨starts, finishes⟩

section Run

variable {site : MatchSite} {converter : Converter} {expression : Expression}
  {before after : Progress}

theorem Converter.writes_of_execute
    (executed : (converter.execute site).run.run before = (.ok true, after)) :
    converter.action.Writes site before.builder after.builder := by
  have ends := converter.execute_ends site before
  rw [executed] at ends
  cases ends with
  | performed writes reports => exact writes.2

theorem Converter.DefinesNamed.resolves (defines : converter.DefinesNamed expression)
    (executed : (converter.execute site).run.run before = (.ok true, after)) :
    ∃ definition : Definition, after.builder = before.builder.define definition ∧
      expression.resolve (site.inGraph before.builder) = .ok definition.id := by
  have writes := converter.writes_of_execute executed
  obtain ⟨kind, capture, isNode⟩ := defines
  rw [isNode] at writes
  generalize after.builder = defined at writes
  cases writes with
  | define definition resolved => exact ⟨definition, rfl, id_of_definition resolved⟩

theorem Converter.LinksAt.resolves {endOf : Edge → String}
    (links : converter.LinksAt expression endOf) {added : Edge}
    (executed : (converter.execute site).run.run before = (.ok true, after))
    (gained : after.builder.graph.edges = before.builder.graph.edges ++ [added]) :
    expression.resolve (site.inGraph before.builder) = .ok (endOf added) := by
  have writes := converter.writes_of_execute executed
  obtain ⟨source, target, edge, sourceKind, targetKind, position, isLink, written⟩ := links
  rw [isLink] at writes
  generalize after.builder = linked at writes gained
  cases writes with
  -- A connection from an entity to itself adds no edge.
  | skipSelf => simp at gained
  | link ends place resolved placed =>
      obtain ⟨starts, finishes⟩ := ids_of_endpoints resolved
      have gainedLink : (before.builder.link ends edge place).graph.edges =
          before.builder.graph.edges ++
            [⟨ends.source, ends.target, edge, before.builder.file, place.1⟩] :=
        EntityGraph.edges_connect _ _ _ _
      rw [gainedLink] at gained
      cases List.append_cancel_left gained
      rcases written with ⟨rfl, rfl⟩ | ⟨rfl, rfl⟩
      · exact starts
      · exact finishes

end Run

/-- The name of a macro is resolved before and after its definition: what it is first becomes the
id of the entity, what it is then becomes the end of the edge. The edge meets the entity where both
builders give the same answers to all that the name looks up; this is so in a builder in which edges
and syntax nodes lead to entities of the graph, if every reference looks past the definition. -/
theorem ConverterDraft.macro_edge_ends_at_definition {engine : RegexEngine}
    {draft : ConverterDraft} {name : String} {endOf : Edge → String} {converters : List Converter}
    (isMacro : draft.definedEnd = some (name, endOf)) (checked : draft.check engine = .ok converters) :
    ∃ expression definition link, Expression.parse name = .ok expression ∧
      converters = [definition, link] ∧
        ∀ site before middle after node id added,
          MacroRun site definition link before middle after node id added →
            expression.resolve (site.inGraph before.builder) = .ok id ∧
              expression.resolve (site.inGraph middle.builder) = .ok (endOf added) ∧
              (expression.SeesAlike site before.builder middle.builder → endOf added = id) ∧
              (before.builder.Closed → expression.LooksPast site before.builder node id →
                endOf added = id) := by
  obtain ⟨expression, definition, link, parsed, pair, defines, links⟩ :=
    halves_of_check isMacro checked
  refine ⟨expression, definition, link, parsed, pair, ?_⟩
  intro site before middle after node id added run
  obtain ⟨made, defined, first⟩ := defines.resolves run.defined
  have second := links.resolves run.linked run.gained
  have claimed : (made.node, made.id) = (node, id) := by
    have written := run.claimed
    rw [defined] at written
    exact List.head_eq_of_cons_eq written
  cases claimed
  -- What both builders show alike, the name resolves to alike.
  have meets : expression.SeesAlike site before.builder middle.builder → endOf added = made.id := by
    intro alike
    rw [← alike.resolve_eq, first] at second
    exact (Except.ok.inj second).symm
  refine ⟨first, second, meets, ?_⟩
  intro closed past
  apply meets
  rw [defined]
  intro reference listed
  exact (past reference listed).sees_alike closed made

def innerClass : MatchSite :=
  let span : Span := ⟨0, 0, 1, 0⟩
  ⟨⟨#[⟨0, "class", "A", span, none, [1]⟩, ⟨1, "class", "B", span, some 0, []⟩], some 0⟩, 1, .empty,
    [0]⟩

def outerDefined : Progress :=
  let span : Span := ⟨0, 0, 1, 0⟩
  ⟨⟨⟨[.resolved "A" .classKind (some "a.py") (some span)], []⟩, "a.py", [(0, "A")], []⟩, []⟩

theorem outer_defined_closed : outerDefined.builder.Closed := by
  constructor
  · nofun
  · intro node id remembered
    have listed := GraphBuilder.associated_of_id remembered
    cases List.mem_singleton.1 listed
    decide

/-- The inner class is named by what a reference stands for, and by its own text. -/
def nestedName (qualifier source : String) : Expression :=
  .mk source [.reference (.mk qualifier false []), .literal ".", .reference (.mk "self" false [])]

def nestedDefinition (name : Expression) : Converter :=
  ⟨.node name (.mk "'class'" [.literal "class"]) none, []⟩

def nestedLink (name : Expression) : Converter :=
  ⟨.connection (.mk "@parent" [.reference (.mk "parent" false [])]) name .defines none
    (some (.mk "'class'" [.literal "class"])) none, []⟩

theorem parent_named_edge_ends_at_definition :
    ∃ definition link middle after added,
      (ConverterDraft.nodeWithParent "@parent + '.' + @self" "'class'" none none []).check
          Regex.engine = .ok [definition, link] ∧
        MacroRun innerClass definition link outerDefined middle after 1 "A.B" added ∧
        added.source = "A" ∧ added.target = "A.B" := by
  let name := nestedName "parent" "@parent + '.' + @self"
  have checked : (ConverterDraft.nodeWithParent "@parent + '.' + @self" "'class'" none none
      []).check Regex.engine = .ok [nestedDefinition name, nestedLink name] := by rfl
  have named : Expression.parse "@parent + '.' + @self" = .ok name := by rfl
  have runs : ∃ middle after, MacroRun innerClass (nestedDefinition name) (nestedLink name)
      outerDefined middle after 1 "A.B" ⟨"A", "A.B", .defines, "a.py", ⟨0, 0, 1, 0⟩⟩ := by
    apply MacroRun.of_outcomes <;> decide +kernel
  have past : name.LooksPast innerClass outerDefined.builder 1 "A.B" := by
    intro reference listed
    simp only [name, nestedName, Expression.allReferences, termReferences, Reference.allReferences,
      callReferences, List.cons_append, List.nil_append, List.mem_cons, List.not_mem_nil,
      or_false] at listed
    rcases listed with rfl | rfl
    · exact ⟨by decide, fun _ walks => absurd walks (by decide), nofun⟩
    · exact ⟨by decide, fun _ walks => absurd walks (by decide), nofun⟩
  obtain ⟨middle, after, run⟩ := runs
  obtain ⟨expression, definition, link, parsed, pair, ends⟩ :=
    ConverterDraft.macro_edge_ends_at_definition rfl checked
  rw [named] at parsed
  cases parsed
  cases pair
  obtain ⟨_, _, _, meets⟩ := ends _ _ _ _ _ _ _ run
  exact ⟨_, _, middle, after, _, checked, run, rfl, meets outer_defined_closed past⟩

/-- Once the inner class is defined, the walk for the enclosing class ends at itself. And an entity
asked for behind the start of the match, where it may be absent, is there once it is defined. -/
theorem own_definition_changes_name :
    (∃ definition link middle after added,
      (ConverterDraft.nodeWithParent "@enclosing_class + '.' + @self" "'class'" none none []).check
          Regex.engine = .ok [definition, link] ∧
        MacroRun innerClass definition link outerDefined middle after 1 "A.B" added ∧
        added.source = "A" ∧ added.target = "A.B.B") ∧
    ∃ definition link middle after added,
      (ConverterDraft.argumentConnection "@self.node? + 'f'" "'class'" "'A'" none none []).check
          Regex.engine = .ok [definition, link] ∧
        MacroRun innerClass definition link outerDefined middle after 1 "f" added ∧
        added.source = "ff" ∧ added.target = "A" := by
  constructor
  · let name := nestedName "enclosing_class" "@enclosing_class + '.' + @self"
    have runs : ∃ middle after, MacroRun innerClass (nestedDefinition name) (nestedLink name)
        outerDefined middle after 1 "A.B" ⟨"A", "A.B.B", .defines, "a.py", ⟨0, 0, 1, 0⟩⟩ := by
      apply MacroRun.of_outcomes <;> decide +kernel
    obtain ⟨middle, after, run⟩ := runs
    exact ⟨nestedDefinition name, nestedLink name, middle, after, _, by rfl, run, rfl, rfl⟩
  · let name : Expression := .mk "@self.node? + 'f'"
      [.reference (.mk "self" true [.mk "node" []]), .literal "f"]
    let link : Converter := ⟨.connection name (.mk "'A'" [.literal "A"]) .uses
      (some (.mk "'class'" [.literal "class"])) none none, []⟩
    have runs : ∃ middle after, MacroRun innerClass (nestedDefinition name) link outerDefined
        middle after 1 "f" ⟨"ff", "A", .uses, "a.py", ⟨0, 0, 1, 0⟩⟩ := by
      apply MacroRun.of_outcomes <;> decide +kernel
    obtain ⟨middle, after, run⟩ := runs
    exact ⟨nestedDefinition name, link, middle, after, _, by rfl, run, rfl, rfl⟩

end SyntaxGraph
