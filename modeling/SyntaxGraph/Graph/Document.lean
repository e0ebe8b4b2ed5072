import SyntaxGraph.Graph.Basic
import SyntaxGraph.Json.Record

/-!
Graph documents: the written form of a graph, with its entities sorted by id and its edges in the
order of insertion. Reading a document checks its shape only.
-/

set_option autoImplicit false

namespace SyntaxGraph

open Json (RecordForm fields? listOf? optionalField?)

structure GraphDocument where
  schemaVersion : String
  entities : List Entity
  edges : List Edge
deriving DecidableEq, Repr, Inhabited

def EntityGraph.toDocument (graph : EntityGraph) : GraphDocument :=
  ⟨"1.0", graph.sortedEntities, graph.edges⟩

def EntityStatus.name : EntityStatus → String
  | .resolved => "resolved"
  | .dangling => "dangling"

def EntityStatus.ofExactName? (text : String) : Option EntityStatus :=
  [EntityStatus.resolved, .dangling].find? fun status => status.name = text

-- Writing

def Span.toJson (span : Span) : Json :=
  .object
    [("start_byte", .natural span.startByte), ("end_byte", .natural span.endByte),
     ("line", .natural span.line), ("column", .natural span.column)]

def optionalMember (name : String) : Option Json → List (String × Json)
  | none => []
  | some value => [(name, value)]

def Entity.toJson (entity : Entity) : Json :=
  .object
    ([("id", .string entity.id), ("kind", .string entity.kind.name),
      ("status", .string entity.status.name)] ++
      optionalMember "file" (entity.file.map .string) ++
      optionalMember "span" (entity.span.map Span.toJson) ++
      optionalMember "context" (entity.context.map .string))

def Edge.toJson (edge : Edge) : Json :=
  .object
    [("source", .string edge.source), ("target", .string edge.target),
     ("type", .string edge.type.name), ("file", .string edge.file), ("span", edge.span.toJson)]

def GraphDocument.toJson (document : GraphDocument) : Json :=
  .object
    [("schema_version", .string document.schemaVersion),
     ("nodes", .array (document.entities.map Entity.toJson)),
     ("edges", .array (document.edges.map Edge.toJson))]

-- Reading

def openForm : RecordForm := ⟨false, .complete⟩

/-- A name stands for a value alone, or as the only member of an object, with null. -/
def readName {Value : Type} (ofName? : String → Option Value) : Json → Option Value
  | .string name | .object [(name, .null)] => ofName? name
  | _ => none

def Span.ofJson? (value : Json) : Option Span := do
  match ← fields? openForm [["start_byte"], ["end_byte"], ["line"], ["column"]] value with
  | [some startByte, some endByte, some line, some column] =>
      return ⟨← startByte.natural?, ← endByte.natural?, ← line.natural?, ← column.natural?⟩
  | _ => none

def Entity.ofJson? (value : Json) : Option Entity := do
  match ← fields? openForm [["id"], ["kind"], ["status"], ["file"], ["span"], ["context"]] value with
  | [some id, some kind, some status, file, span, context] =>
      return ⟨← id.text?, ← readName EntityKind.ofExactName? kind,
        ← readName EntityStatus.ofExactName? status, ← optionalField? Json.text? file,
        ← optionalField? Span.ofJson? span, ← optionalField? Json.text? context⟩
  | _ => none

def Edge.ofJson? (value : Json) : Option Edge := do
  match ← fields? openForm [["source"], ["target"], ["type"], ["file"], ["span"]] value with
  | [some source, some target, some type, some file, some span] =>
      return ⟨← source.text?, ← target.text?, ← readName EdgeType.ofExactName? type, ← file.text?,
        ← Span.ofJson? span⟩
  | _ => none

def GraphDocument.ofJson? (value : Json) : Option GraphDocument := do
  match ← fields? openForm [["schema_version"], ["nodes"], ["edges"]] value with
  | [some version, some entities, some edges] =>
      return ⟨← version.text?, ← listOf? Entity.ofJson? entities, ← listOf? Edge.ofJson? edges⟩
  | _ => none

end SyntaxGraph
