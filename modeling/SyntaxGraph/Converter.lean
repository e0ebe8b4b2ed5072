import SyntaxGraph.Predicate

/-!
Converters turn a match into changes of the graph. A converter resolves everything that it needs
before it changes anything, so one that fails leaves the builder as it was.
-/

set_option autoImplicit false

namespace SyntaxGraph

inductive Action where
  /-- Defines an entity; a capture may tell its syntax node in place of the start of the match. -/
  | node (name kind : Expression) (capture : Option String)
  /-- Adds an edge; a capture may tell its place in the source. -/
  | connection (source target : Expression) (edge : EdgeType)
      (sourceKind targetKind : Option Expression) (position : Option String)
  /-- Reports an identifier that neither the graph nor the imports mention. -/
  | validateIdentifier (identifier : Expression)
  | recordImport (fields : StringMap Expression)
deriving Inhabited

structure Converter where
  action : Action
  predicates : List Predicate
deriving Inhabited

inductive Event where
  /-- A predicate lacked an enclosing entity, and the match was accepted all the same. -/
  | lenientPass (pattern : Nat) (node : NodeId) (cause : ResolveError)
  | matchRejected (pattern : Nat) (node : NodeId) (cause : ResolveError)
  | converterSkipped (pattern converter : Nat) (cause : ResolveError)
  | selfConnectionSkipped (id : String)
  | identifierNotFound (identifier file : String)
deriving DecidableEq, Repr

structure Progress where
  builder : GraphBuilder
  events : List Event
deriving DecidableEq, Inhabited

/-- A conversion yields a value or fails, and in both cases leaves what it has done so far. -/
abbrev Conversion := ExceptT ResolveError (StateM Progress)

namespace Conversion

def reading {Result : Type} (site : MatchSite)
    (read : MatchContext → Except ResolveError Result) : Conversion Result := do
  liftExcept (read (site.inGraph (← get).builder))
where
  liftExcept {Result : Type} : Except ResolveError Result → Conversion Result
    | .ok result => pure result
    | .error error => throw error

def change (update : GraphBuilder → GraphBuilder) : Conversion Unit :=
  modify fun progress => { progress with builder := update progress.builder }

def report (event : Event) : Conversion Unit :=
  modify fun progress => { progress with events := progress.events ++ [event] }

end Conversion

def fallbackKind : EntityKind := .object

def resolveKind (context : MatchContext) (expression : Expression) :
    Except ResolveError EntityKind := do
  let text ← expression.resolve context
  match EntityKind.parse? text with
  | some kind => return kind
  | none => throw (.unknownEntityKind text)

def resolveOptionalKind (context : MatchContext) :
    Option Expression → Except ResolveError EntityKind
  | some expression => resolveKind context expression
  | none => .ok fallbackKind

/-- The node of a capture, or the start of the match where no capture is named. -/
def MatchSite.anchor (site : MatchSite) : Option String → Except ResolveError NodeId
  | none => .ok site.start
  | some capture =>
      match site.captures.find? capture with
      | some node => .ok node
      | none => .error (.missingCapture capture)

def MatchSite.spanOf (site : MatchSite) (node : NodeId) : Except ResolveError Span :=
  match site.tree.node? node with
  | some found => .ok found.span
  | none => .error (.unknownNode node)

structure Definition where
  id : String
  kind : EntityKind
  node : NodeId
  span : Span
deriving DecidableEq, Repr

def resolveDefinition (name kind : Expression) (capture : Option String)
    (context : MatchContext) : Except ResolveError Definition := do
  let id ← name.resolve context
  let kind ← resolveKind context kind
  let node ← context.anchor capture
  return ⟨id, kind, node, ← context.spanOf node⟩

structure Endpoints where
  source : String
  target : String
  sourceKind : EntityKind
  targetKind : EntityKind
deriving DecidableEq, Repr

def Endpoints.isSelfConnection (ends : Endpoints) : Bool :=
  Text.trim ends.source = Text.trim ends.target && ends.sourceKind = ends.targetKind

def resolveEndpoints (source target : Expression) (sourceKind targetKind : Option Expression)
    (context : MatchContext) : Except ResolveError Endpoints := do
  let sourceId ← source.resolve context
  let targetId ← target.resolve context
  let kindOfSource ← resolveOptionalKind context sourceKind
  return ⟨sourceId, targetId, kindOfSource, ← resolveOptionalKind context targetKind⟩

def resolvePlace (position : Option String) (context : MatchContext) :
    Except ResolveError (Span × Option String) := do
  let node ← context.anchor position
  let enclosing ← context.nearestAncestor
  return (← context.spanOf node, enclosing.map (·.id))

/-- Fields are resolved in the order of their names. -/
def resolveFields (context : MatchContext) :
    List (String × Expression) → Except ResolveError (List (String × String))
  | [] => .ok []
  | (name, expression) :: rest => do
      let text ← expression.resolve context
      return (name, text) :: (← resolveFields context rest)

def GraphBuilder.mentions (builder : GraphBuilder) (identifier : String) : Bool :=
  let isPartOf (text : String) : Bool := Text.containsPart identifier.toList text.toList
  (builder.graph.entities.any fun entity => isPartOf entity.id) ||
    builder.imports.any fun record => record.entries.any fun entry => isPartOf entry.2

namespace Action

def perform (site : MatchSite) : Action → Conversion Unit
  | .node name kind capture => do
      let definition ← Conversion.reading site (resolveDefinition name kind capture)
      Conversion.change fun builder =>
        let graph := builder.graph.claim definition.id definition.kind (some builder.file)
          (some definition.span)
        { builder with graph := graph }.associate definition.node definition.id
  | .connection source target edge sourceKind targetKind position => do
      let ends ← Conversion.reading site (resolveEndpoints source target sourceKind targetKind)
      if ends.isSelfConnection then
        Conversion.report (.selfConnectionSkipped ends.source)
      else
        let (span, enclosing) ← Conversion.reading site (resolvePlace position)
        Conversion.change fun builder =>
          let added : Edge := ⟨ends.source, ends.target, edge, builder.file, span⟩
          { builder with
            graph := builder.graph.connect added ends.sourceKind ends.targetKind enclosing }
  | .validateIdentifier identifier => do
      let text ← Conversion.reading site fun context => identifier.resolve context
      let builder := (← get).builder
      unless builder.mentions text do
        Conversion.report (.identifierNotFound text builder.file)
  | .recordImport fields => do
      let texts ← Conversion.reading site fun context => resolveFields context fields.entries
      Conversion.change fun builder => builder.recordImport (StringMap.ofList texts)

end Action

def Converter.execute (site : MatchSite) (converter : Converter) : Conversion Bool := do
  if ← Conversion.reading site fun context => Predicate.allPass context converter.predicates then
    converter.action.perform site
    return true
  else return false

end SyntaxGraph
