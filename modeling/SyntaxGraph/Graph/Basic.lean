import SyntaxGraph.Graph.Kind
import SyntaxGraph.Tree.Basic

/-!
Graphs of code entities. Entities and edges keep the order in which they were added. An entity is
resolved once a definition was seen, and dangling while only edges mention it; a definition takes
over a dangling entity, and a resolved one stays as it is.
-/

set_option autoImplicit false

namespace SyntaxGraph

inductive EntityStatus where
  | resolved
  | dangling
deriving DecidableEq, Repr, Inhabited

/-- The context is the enclosing entity at the time when a dangling one was made up. -/
structure Entity where
  id : String
  kind : EntityKind
  status : EntityStatus
  file : Option String
  span : Option Span
  context : Option String
deriving DecidableEq, Repr, Inhabited

namespace Entity

def resolved (id : String) (kind : EntityKind) (file : Option String) (span : Option Span) :
    Entity :=
  ⟨id, kind, .resolved, file, span, none⟩

def dangling (id : String) (kind : EntityKind) (context : Option String) : Entity :=
  ⟨id, kind, .dangling, none, none, context⟩

def isDangling (entity : Entity) : Bool := entity.status = .dangling

def name (entity : Entity) : String :=
  String.ofList (entity.id.toList.reverse.takeWhile (· ≠ '.')).reverse

/-- A dangling entity takes the kind and place of its definition and keeps its context. -/
def define (entity : Entity) (kind : EntityKind) (file : Option String) (span : Option Span) :
    Entity :=
  if entity.isDangling then
    { entity with kind := kind, status := .resolved, file := file, span := span }
  else entity

end Entity

structure Edge where
  source : String
  target : String
  type : EdgeType
  file : String
  span : Span
deriving DecidableEq, Repr, Inhabited

structure EntityGraph where
  entities : List Entity
  edges : List Edge
deriving DecidableEq, Repr, Inhabited

namespace EntityGraph

def empty : EntityGraph := ⟨[], []⟩

def entity? (graph : EntityGraph) (id : String) : Option Entity :=
  graph.entities.find? fun entity => entity.id = id

def contains (graph : EntityGraph) (id : String) : Bool := (graph.entity? id).isSome

def position? (graph : EntityGraph) (id : String) : Option Nat :=
  graph.entities.findIdx? fun entity => entity.id = id

def update (graph : EntityGraph) (id : String) (change : Entity → Entity) : EntityGraph :=
  { graph with
    entities := graph.entities.map fun entity => if entity.id = id then change entity else entity }

def addEntity (graph : EntityGraph) (entity : Entity) : EntityGraph :=
  if graph.contains entity.id then graph.update entity.id fun _ => entity
  else { graph with entities := graph.entities ++ [entity] }

/-- Defines the entity with an id: a new one is resolved, a dangling one becomes so. -/
def claim (graph : EntityGraph) (id : String) (kind : EntityKind) (file : Option String)
    (span : Option Span) : EntityGraph :=
  if graph.contains id then graph.update id fun entity => entity.define kind file span
  else graph.addEntity (.resolved id kind file span)

def setKind (graph : EntityGraph) (id : String) (kind : EntityKind) : EntityGraph :=
  graph.update id fun entity => { entity with kind := kind }

def appendEdge (graph : EntityGraph) (edge : Edge) : EntityGraph :=
  { graph with edges := graph.edges ++ [edge] }

def addEdge? (graph : EntityGraph) (edge : Edge) : Option EntityGraph :=
  if graph.contains edge.source && graph.contains edge.target then some (graph.appendEdge edge)
  else none

def ensureEntity (graph : EntityGraph) (id : String) (kind : EntityKind)
    (context : Option String) : EntityGraph :=
  if graph.contains id then graph else graph.addEntity (.dangling id kind context)

/-- Adds an edge after making up the entities that it lacks, the source first. -/
def connect (graph : EntityGraph) (edge : Edge) (sourceKind targetKind : EntityKind)
    (context : Option String) : EntityGraph :=
  ((graph.ensureEntity edge.source sourceKind context).ensureEntity edge.target targetKind
    context).appendEdge edge

def ofKind (graph : EntityGraph) (kind : EntityKind) : List Entity :=
  graph.entities.filter fun entity => entity.kind = kind

def edgesOfType (graph : EntityGraph) (type : EdgeType) : List Edge :=
  graph.edges.filter fun edge => edge.type = type

def outgoing (graph : EntityGraph) (id : String) : List Edge :=
  graph.edges.filter fun edge => edge.source = id

def incoming (graph : EntityGraph) (id : String) : List Edge :=
  graph.edges.filter fun edge => edge.target = id

def parentOf? (graph : EntityGraph) (id : String) : Option Entity :=
  ((graph.incoming id).find? fun edge => edge.type = .defines || edge.type = .contains).bind
    fun edge => graph.entity? edge.source

def supertypesOf (graph : EntityGraph) (id : String) : List Entity :=
  ((graph.outgoing id).filter fun edge => edge.type = .inherits).filterMap
    fun edge => graph.entity? edge.target

/-- Takes an entity over, unless the one present is resolved or the new one dangling. -/
def mergeEntity (graph : EntityGraph) (entity : Entity) : EntityGraph :=
  match graph.entity? entity.id with
  | some present =>
      if !present.isDangling || entity.isDangling then graph else graph.addEntity entity
  | none => graph.addEntity entity

def mergeEdge (graph : EntityGraph) (edge : Edge) : EntityGraph :=
  (graph.addEdge? edge).getD graph

def merge (graph other : EntityGraph) : EntityGraph :=
  other.edges.foldl mergeEdge (other.entities.foldl mergeEntity graph)

def sortedEntities (graph : EntityGraph) : List Entity :=
  graph.entities.mergeSort fun left right => !(right.id < left.id)

end EntityGraph

end SyntaxGraph
