import SyntaxGraph.Tree.Basic

/-!
Walks over a tree. Both walks from the root work off a stack, whose bound is met with room to
spare when no node is listed twice and no node lies below itself.
-/

set_option autoImplicit false

namespace SyntaxGraph

namespace Tree

def preorderStack (tree : Tree) : Nat → List NodeId → List NodeId
  | 0, _ => []
  | _ + 1, [] => []
  | bound + 1, id :: stack => id :: tree.preorderStack bound (tree.children id ++ stack)

def preorder (tree : Tree) : List NodeId := tree.preorderStack tree.size tree.root.toList

/-- A node is put back, marked, under its children and emitted when it comes up again. -/
def postorderStack (tree : Tree) : Nat → List (NodeId × Bool) → List NodeId
  | 0, _ => []
  | _ + 1, [] => []
  | bound + 1, (id, true) :: stack => id :: tree.postorderStack bound stack
  | bound + 1, (id, false) :: stack =>
      tree.postorderStack bound ((tree.children id).map (·, false) ++ (id, true) :: stack)

def topologicalOrder (tree : Tree) : List NodeId :=
  tree.postorderStack (2 * tree.size) (tree.root.toList.map (·, false))

def leaves (tree : Tree) : List NodeId :=
  tree.preorder.filter fun id => (tree.children id).isEmpty

def ancestorsWithin (tree : Tree) : Nat → NodeId → List NodeId
  | 0, _ => []
  | bound + 1, id =>
      match tree.parent? id with
      | none => []
      | some parent => parent :: tree.ancestorsWithin bound parent

def ancestors (tree : Tree) (id : NodeId) : List NodeId := tree.ancestorsWithin tree.size id

end Tree

end SyntaxGraph
