import SyntaxGraph.CommandLine.Command
import SyntaxGraph.CommandLine.Session
import SyntaxGraph.Tree.Outline

/-!
The command that shows the syntax tree of a file, as an outline or as an indented listing with the
sizes of inner nodes and the texts of leaves.
-/

set_option autoImplicit false

namespace SyntaxGraph

/-- The line of a node: a leaf shows its text, and an underscore for an empty rule. -/
def Node.listingLine (node : Node) (level size : Nat) : String :=
  let indent := String.ofList (List.replicate (2 * level) ' ')
  let place := s!"[{node.span.line}:{node.span.column}]"
  if node.children.isEmpty then
    indent ++ (if node.rule.isEmpty then "_" else node.rule) ++ " " ++
      Text.quoted .double node.text ++ " " ++ place
  else indent ++ node.rule ++ " " ++ place ++ s!" size={size}"

namespace Tree

def listingWithin (tree : Tree) (report : StatsReport) : Nat → Nat → NodeId → List String
  | 0, _, _ => []
  | bound + 1, level, id =>
      match tree.node? id with
      | none => []
      | some node =>
          let size := ((report.perNode.find? id).map (·.size)).getD 0
          node.listingLine level size ::
            node.children.flatMap (tree.listingWithin report bound (level + 1))

def listing (tree : Tree) (report : StatsReport) (root : NodeId) : List String :=
  tree.listingWithin report tree.size 0 root

end Tree

namespace CommandLine

def requireStats (tree : Tree) : Session StatsReport :=
  match tree.stats with
  | .ok report => pure report
  | .error (.refused error) => Session.fail (.stats error)
  | .error (.overflow _) => throw .overflow

def runTree (settings : Settings) (grammar : Grammar) (options : TreeOptions) :
    Session Unit := do
  let forced ← Session.require id (forcedLanguage settings)
  let tree ← Session.require .source (readSource (← Session.files) grammar forced options.file)
  match tree.root with
  | none => Session.fail .emptyTree
  | some root =>
      if options.outline then
        Session.say ((tree.toOutline? root).getD "")
      else
        let report ← requireStats tree
        let summary := report.summary
        Session.sayAll (tree.listing report root)
        Session.say ""
        Session.say s!"{summary.size} nodes, height {summary.height}, {summary.leaves} leaves"

end CommandLine

end SyntaxGraph
