import SyntaxGraph.Json.Value
import SyntaxGraph.Tree.Outline
import SyntaxGraph.Tree.Stats

/-!
JSON views of trees, their walks and their statistics, for inspection.
-/

set_option autoImplicit false

namespace SyntaxGraph

def Span.numbers (span : Span) : List Nat :=
  [span.startByte, span.endByte, span.line, span.column]

def Node.view (node : Node) : Json :=
  .object
    [("id", .natural node.id), ("rule", .string node.rule), ("text", .string node.text),
     ("span", .naturals node.span.numbers), ("parent", .ofOption (node.parent.map .natural)),
     ("children", .naturals node.children), ("terminal", .bool node.isTerminal)]

namespace Tree

def viewMembers (tree : Tree) : List (String × Json) :=
  [("root", .ofOption (tree.root.map .natural)), ("nodes", .array (tree.nodes.toList.map Node.view))]

def view (tree : Tree) : Json := .object tree.viewMembers

def walkMembers (tree : Tree) : List (String × Json) :=
  [("preorder", .naturals tree.preorder), ("topological", .naturals tree.topologicalOrder),
   ("leaves", .naturals tree.leaves),
   ("outline", .ofOption ((tree.root.bind tree.toOutline?).map .string))]

end Tree

/-- One row of number, size, height and leaf count per node, in the order of the numbers. -/
def StatsReport.view (report : StatsReport) : Json :=
  let rows := report.perNode.toList.zipIdx.filterMap fun (stats, id) =>
    stats.map fun stats => Json.naturals [id, stats.size, stats.height, stats.leaves]
  .object
    [("size", .natural report.summary.size), ("height", .natural report.summary.height),
     ("leaves", .natural report.summary.leaves), ("per_node", .array rows)]

def VisitReport.view (report : VisitReport) : Json :=
  .object [("order", .naturals report.order), ("root", .string report.root)]

end SyntaxGraph
