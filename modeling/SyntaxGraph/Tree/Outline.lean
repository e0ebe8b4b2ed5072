import SyntaxGraph.Outline.Parser
import SyntaxGraph.Outline.Printer
import SyntaxGraph.Tree.Order

/-!
Trees and outlines. An outline becomes a tree with ids in pre-order and spans on a single line:
every child starts where its text would start if the children's texts were joined by spaces.
-/

set_option autoImplicit false

namespace SyntaxGraph

namespace Tree

mutual

def addOutline (parent : Option NodeId) (start : Nat) : Outline → Tree → Tree
  | .node rule text children, tree =>
      let full := (Outline.node rule text children).fullText
      let span : Span := ⟨start, start + full.utf8ByteSize, 1, start⟩
      let id := tree.size
      let (listed, grown) := addOutlines id start children (tree.push parent rule full span)
      grown.setChildren id listed

def addOutlines (parent : NodeId) (start : Nat) : List Outline → Tree → List NodeId × Tree
  | [], tree => ([], tree)
  | outline :: rest, tree =>
      let id := tree.size
      let grown := addOutline (some parent) start outline tree
      let (listed, final) := addOutlines parent (start + outline.fullText.utf8ByteSize + 1) rest grown
      (id :: listed, final)

end

def ofOutline (outline : Outline) : Tree :=
  { addOutline none 0 outline empty with root := some 0 }

def parseOutline (source : String) : Except OutlineError Tree :=
  (Outline.parse source).map ofOutline

/-- The outline of a subtree, all texts written, down to the given number of levels. -/
def outlineWithin (tree : Tree) : Nat → NodeId → Outline
  | 0, _ => .node "" none []
  | depth + 1, id =>
      match tree.node? id with
      | none => .node "" none []
      | some node =>
          .node node.rule (some node.text) (node.children.map (tree.outlineWithin depth))

def toOutline? (tree : Tree) (id : NodeId) : Option String :=
  if tree.contains id then some (tree.outlineWithin tree.size id).render else none

end Tree

end SyntaxGraph
