import SyntaxGraph.Captures
import SyntaxGraph.Digest.Sha256
import SyntaxGraph.Expression.Parser
import SyntaxGraph.Graph.Builder
import SyntaxGraph.Text.Search
import SyntaxGraph.Tree.Order

/-!
Resolving expressions against one match. A capture stands for a syntax node; four names stand for
something without being captured. Calls change the value from left to right, and the values of all
terms are rendered and joined at the end. A reference that may be absent contributes nothing when
its value is missing.
-/

set_option autoImplicit false

namespace SyntaxGraph

inductive ResolveError where
  | missingCapture (name : String)
  /-- No enclosing match has an entity. -/
  | missingAncestor (name : String)
  | unknownEntityKind (text : String)
  /-- The bound syntax node has no entity in the current file. -/
  | unmappedNode (name : String)
  /-- A node was looked at which the tree never issued. -/
  | unknownNode (node : NodeId)
deriving DecidableEq, Repr

namespace ResolveError

def message : ResolveError → String
  | .missingCapture name => "missing capture '@" ++ name ++ "'"
  | .missingAncestor name =>
      "missing ancestor for '@" ++ name ++ "': no enclosing match has a graph node"
  | .unknownEntityKind text => "unknown entity kind '" ++ text ++ "'"
  | .unmappedNode name =>
      "no graph node is associated with the syntax node bound to '@" ++ name ++ "'"
  | .unknownNode node => (TreeError.unknownNode node).message

/-- The errors that an optional mark forgives: every way in which a value can be absent. -/
def isAbsence : ResolveError → Bool
  | .missingCapture _ | .missingAncestor _ | .unmappedNode _ => true
  | .unknownEntityKind _ | .unknownNode _ => false

def isMissingAncestor : ResolveError → Bool
  | .missingAncestor _ => true
  | _ => false

end ResolveError

/-- Where a match was found. The ancestors are the start nodes of the enclosing matches, the
outermost first. -/
structure MatchSite where
  tree : Tree
  start : NodeId
  captures : Captures
  ancestors : List NodeId

/-- Everything that an expression may look at: a match, and the graph under construction where
there is one. -/
structure MatchContext extends MatchSite where
  builder : Option GraphBuilder

def MatchSite.inGraph (site : MatchSite) (builder : GraphBuilder) : MatchContext :=
  ⟨site, some builder⟩

inductive Value where
  | text (text : String)
  | list (items : List String)
  | node (id : NodeId)
  | entity (id : String)
deriving DecidableEq, Repr

namespace Value

/-- Items of a list are joined by dots; a node stands for its source text. -/
def render (tree : Tree) : Value → Except ResolveError String
  | .text content => .ok content
  | .list items => .ok (".".intercalate items)
  | .node id =>
      match tree.text? id with
      | some content => .ok content
      | none => .error (.unknownNode id)
  | .entity id => .ok id

end Value

def stripNewlines (text : String) : String :=
  String.ofList (text.toList.filter fun character => character ≠ '\n' && character ≠ '\r')

def formatValues (tree : Tree) (values : List Value) : Except ResolveError String := do
  return stripNewlines (String.join (← values.mapM (Value.render tree)))

namespace MatchContext

/-- The first entity of a node in the list, which is not read beyond the outermost match. -/
def nearestAmong (builder : GraphBuilder) (outermost : NodeId) : List NodeId → Option Entity
  | [] => none
  | node :: rest =>
      match builder.entityOf? node with
      | some entity => some entity
      | none => if node = outermost then none else nearestAmong builder outermost rest

/-- The entity of the nearest syntax ancestor of the match that has one, up to the start of the
outermost enclosing match. -/
def nearestAncestor (context : MatchContext) : Except ResolveError (Option Entity) :=
  match context.builder, context.ancestors with
  | some builder, outermost :: _ =>
      if context.tree.contains context.start then
        .ok (nearestAmong builder outermost (context.tree.ancestors context.start))
      else .error (.unknownNode context.start)
  | _, _ => .ok none

/-- Follows parents up to the first class. An id that comes up again ends the walk. -/
def classUpwards (graph : EntityGraph) : Nat → List String → Option Entity → Option Entity
  | _, _, none => none
  | 0, _, some _ => none
  | bound + 1, visited, some entity =>
      if entity.kind = .classKind then some entity
      else if visited.contains entity.id then none
      else classUpwards graph bound (entity.id :: visited) (graph.parentOf? entity.id)

/-- The first class from the match's own entity, or else the nearest ancestor's, upwards. -/
def enclosingClass (context : MatchContext) : Except ResolveError (Option Entity) :=
  match context.builder with
  | none => .ok none
  | some builder => do
      let start ← match builder.entityOf? context.start with
        | some entity => pure (some entity)
        | none => context.nearestAncestor
      return classUpwards builder.graph (builder.graph.entities.length + 2) [] start

def isSpecial (name : String) : Bool :=
  ["parent", "self", "enclosing_class", "superclass"].contains name

def requireEntity (error : ResolveError) : Option Entity → Except ResolveError Value
  | some entity => .ok (.entity entity.id)
  | none => .error error

def special (context : MatchContext) (name : String) : Except ResolveError Value :=
  match name with
  | "parent" => do requireEntity (.missingAncestor name) (← context.nearestAncestor)
  | "self" => .ok (.node context.start)
  | "enclosing_class" => do requireEntity (.missingCapture name) (← context.enclosingClass)
  | "superclass" => do
      let supertypes := match context.builder, ← context.enclosingClass with
        | some builder, some entity => builder.graph.supertypesOf entity.id
        | _, _ => []
      requireEntity (.missingCapture name) (supertypes.find? fun entity => entity.kind = .classKind)
  | _ => .error (.missingCapture name)

/-- The value of a name: captures come before the special names. -/
def lookup (context : MatchContext) (name : String) : Except ResolveError Value :=
  match context.captures.find? name with
  | some node => .ok (.node node)
  | none => context.special name

end MatchContext

def textCall? (name : String) (arguments : List String) : Option (String → Value) :=
  let argument := (arguments.headD "").toList
  match name with
  | "split" => some fun text =>
      if argument.isEmpty then .list [text]
      else .list ((Text.piecesBetween argument text.toList).map String.ofList)
  | "hash" => some fun text => .text (Sha256.hexDigest text)
  | "until" => some fun text =>
      if argument.isEmpty then .text text
      else .text (String.ofList (Text.beforeFirst argument text.toList))
  | _ => none

/-- A call for which the value has no answer of its own is tried on its text; a call that is
unknown there too leaves the value alone. -/
def callOnText (tree : Tree) (value : Value) (name : String) (arguments : List String) :
    Except ResolveError Value :=
  match textCall? name arguments with
  | some call => return call (← value.render tree)
  | none => .ok value

def applyCall (context : MatchContext) (capture : String) (value : Value) (name : String)
    (arguments : List String) : Except ResolveError Value :=
  match value with
  | .list items =>
      if name = "last" then .ok (.text (items.getLast?.getD ""))
      else callOnText context.tree value name arguments
  | .node node =>
      if name = "node" then
        match context.builder.bind fun builder => builder.entityOf? node with
        | some entity => .ok (.entity entity.id)
        | none => .error (.unmappedNode capture)
      else callOnText context.tree value name arguments
  | .text _ | .entity _ => callOnText context.tree value name arguments

mutual

def Expression.resolve (context : MatchContext) : Expression → Except ResolveError String
  | .mk _ terms => do formatValues context.tree (← termValues context terms)

def termValues (context : MatchContext) : List Term → Except ResolveError (List Value)
  | [] => .ok []
  | .literal text :: rest => do return .text text :: (← termValues context rest)
  | .reference reference :: rest =>
      match Reference.value context reference with
      | .ok value => do return value :: (← termValues context rest)
      | .error error =>
          if reference.isOptional && error.isAbsence then termValues context rest
          else .error error

def Reference.value (context : MatchContext) : Reference → Except ResolveError Value
  | .mk name _ calls => do applyCalls context name (← context.lookup name) calls

def applyCalls (context : MatchContext) (capture : String) (value : Value) :
    List DotCall → Except ResolveError Value
  | [] => .ok value
  | .mk name arguments :: rest => do
      let texts ← resolveAll context arguments
      applyCalls context capture (← applyCall context capture value name texts) rest

def resolveAll (context : MatchContext) : List Expression → Except ResolveError (List String)
  | [] => .ok []
  | expression :: rest => do
      let text ← expression.resolve context
      return text :: (← resolveAll context rest)

end

def Expression.values (context : MatchContext) (expression : Expression) :
    Except ResolveError (List Value) :=
  termValues context expression.terms

/-- Reads and resolves a text; one that does not read is taken literally. -/
def resolveText (context : MatchContext) (source : String) : Except ResolveError String :=
  match Expression.parse source with
  | .ok expression => expression.resolve context
  | .error _ => .ok (stripNewlines source)

end SyntaxGraph
