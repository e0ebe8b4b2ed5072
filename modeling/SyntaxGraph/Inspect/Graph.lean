import SyntaxGraph.Graph.Builder
import SyntaxGraph.Graph.Document
import SyntaxGraph.Inspect.Tree

/-!
JSON views of graphs and of what a builder remembers, for inspection.
-/

set_option autoImplicit false

namespace SyntaxGraph

def EntityGraph.view (graph : EntityGraph) : Json :=
  let insertion := Json.strings (graph.entities.map (·.id))
  match graph.toDocument.toJson with
  | .object members => .object (members ++ [("insertion", insertion)])
  | other => other

def Edge.viewFrom (edge : Edge) (other : String) : Json :=
  .array
    [.string other, .string edge.type.name, .string edge.file, .naturals edge.span.numbers]

def StringMap.textView (texts : StringMap String) : Json :=
  .object (texts.entries.map fun (name, text) => (name, .string text))

def GraphBuilder.importsView (builder : GraphBuilder) : Json :=
  .array (builder.imports.map StringMap.textView)

def EntityGraph.countsView (graph : EntityGraph) : Json :=
  .naturals [graph.entities.length, graph.edges.length]

end SyntaxGraph
