/-!
Syntax trees kept in an arena. A node is addressed by its position; nodes are only added,
never removed. A node records a parent before that parent lists it, so "recorded parent"
and "listed child" are two relations which the edits keep in step.
An edit may be refused. It is run on a tree and leaves a tree whether or not it is refused.
-/

set_option autoImplicit false

namespace SyntaxGraph

/-- Position of a node in the arena of its tree. A node keeps it in 32 bits; it is a number without a
bound here, which says the same of all trees of up to `NodeId.bound` nodes. -/
abbrev NodeId := Nat

/-- The number of nodes that can be told apart by ids of 32 bits. -/
def NodeId.bound : Nat := UInt32.size

/-- Source range of a node: bytes from start to end, the line from one, the column from zero. -/
structure Span where
  startByte : Nat
  endByte : Nat
  line : Nat
  column : Nat
deriving DecidableEq, Repr, Inhabited

structure Node where
  id : NodeId
  rule : String
  text : String
  span : Span
  parent : Option NodeId
  children : List NodeId
deriving DecidableEq, Repr, Inhabited

def Node.isTerminal (node : Node) : Bool := node.children.isEmpty && node.rule.isEmpty

structure Tree where
  nodes : Array Node
  root : Option NodeId
deriving DecidableEq, Repr, Inhabited

inductive TreeError where
  | indexOutOfRange (node : NodeId) (index count : Nat)
  | unknownNode (node : NodeId)
  | alreadyAttached (child parent : NodeId)
deriving DecidableEq, Repr

def TreeError.message : TreeError → String
  | .indexOutOfRange node index count =>
      s!"child index {index} out of range for node #{node} with {count} children"
  | .unknownNode node => s!"node #{node} does not belong to this tree"
  | .alreadyAttached child parent => s!"node #{child} is already attached to #{parent}"

namespace Tree

def empty : Tree := ⟨#[], none⟩

def size (tree : Tree) : Nat := tree.nodes.size

def isEmpty (tree : Tree) : Bool := tree.nodes.isEmpty

def node? (tree : Tree) (id : NodeId) : Option Node := tree.nodes[id]?

def contains (tree : Tree) (id : NodeId) : Bool := id < tree.size

def text? (tree : Tree) (id : NodeId) : Option String := (tree.node? id).map (·.text)

def rule (tree : Tree) (id : NodeId) : String := ((tree.node? id).map (·.rule)).getD ""

def children (tree : Tree) (id : NodeId) : List NodeId :=
  ((tree.node? id).map (·.children)).getD []

/-- Recorded parent, which need not list the node among its children yet. -/
def parent? (tree : Tree) (id : NodeId) : Option NodeId := (tree.node? id).bind (·.parent)

def push (tree : Tree) (parent : Option NodeId) (rule text : String) (span : Span) : Tree :=
  { tree with nodes := tree.nodes.push ⟨tree.size, rule, text, span, parent, []⟩ }

def setParent (tree : Tree) (id : NodeId) (parent : Option NodeId) : Tree :=
  { tree with nodes := tree.nodes.modify id fun node => { node with parent := parent } }

def setChildren (tree : Tree) (id : NodeId) (children : List NodeId) : Tree :=
  { tree with nodes := tree.nodes.modify id fun node => { node with children := children } }

def withRoot (rule text : String) (span : Span) : Tree :=
  { empty.push none rule text span with root := some 0 }

def child (tree : Tree) (id : NodeId) (index : Nat) : Except TreeError NodeId :=
  match tree.node? id with
  | none => .error (.unknownNode id)
  | some node =>
      match node.children[index]? with
      | none => .error (.indexOutOfRange id index node.children.length)
      | some found => .ok found

end Tree

/-- An edit yields a value or is refused, and in both cases leaves a tree. -/
abbrev TreeEdit := ExceptT TreeError (StateM Tree)

namespace TreeEdit

def requireNode (id : NodeId) : TreeEdit Unit := do
  unless (← get).contains id do
    throw (.unknownNode id)

/-- Refuses a node which its recorded parent already lists. -/
def requireDetached (child : NodeId) : TreeEdit Unit := do
  let tree ← get
  match tree.parent? child with
  | some parent =>
      if (tree.children parent).contains child then
        throw (.alreadyAttached child parent)
  | none => pure ()

def allocate (parent : Option NodeId) (rule text : String) (span : Span) : TreeEdit NodeId := do
  let tree ← get
  set (tree.push parent rule text span)
  return tree.size

/-- The new node records its parent and is not listed there. In a tree without a root the
first node without a parent becomes the root. -/
def addNode (parent : Option NodeId) (rule text : String) (span : Span) : TreeEdit NodeId := do
  match parent with
  | some parent => requireNode parent
  | none => pure ()
  let id ← allocate parent rule text span
  let tree ← get
  if parent.isNone && tree.root.isNone then
    set { tree with root := some id }
  return id

def attachChild (parent child : NodeId) : TreeEdit Unit := do
  requireNode parent
  requireNode child
  requireDetached child
  let tree ← get
  let adopted := tree.setParent child (some parent)
  set (adopted.setChildren parent (adopted.children parent ++ [child]))

def pushChild (parent : NodeId) (rule text : String) (span : Span) : TreeEdit NodeId := do
  let id ← addNode (some parent) rule text span
  attachChild parent id
  return id

/-- Puts a detached node in the place of a child, which becomes parentless and is returned. -/
def replaceChild (parent : NodeId) (index : Nat) (replacement : NodeId) : TreeEdit NodeId := do
  requireNode replacement
  let old ← (← get).child parent index
  if old = replacement then
    return old
  requireDetached replacement
  let tree ← get
  let relisted := tree.setChildren parent ((tree.children parent).set index replacement)
  set ((relisted.setParent old none).setParent replacement (some parent))
  return old

def setRoot (id : NodeId) : TreeEdit Unit := do
  requireNode id
  modify fun tree => { tree with root := some id }

end TreeEdit

namespace Tree

/-- Copies each listed child under the copied parent, in order, without its own children.
The result pairs every child with its copy. -/
def copyChildren (copied : NodeId) : List NodeId → Tree → List (NodeId × NodeId) × Tree
  | [], tree => ([], tree)
  | child :: rest, tree =>
      match tree.node? child with
      | none => copyChildren copied rest tree
      | some node =>
          let fresh := tree.size
          let grown := tree.push (some copied) node.rule node.text node.span
          let listed := grown.setChildren copied (grown.children copied ++ [fresh])
          let (pairs, final) := copyChildren copied rest listed
          ((child, fresh) :: pairs, final)

/-- Works off pairs of a node and its childless copy, the pair added last first. The bound
on the number of pairs is the number of nodes in the copied subtree. -/
def copyPending : Nat → List (NodeId × NodeId) → Tree → Tree
  | 0, _, tree => tree
  | _ + 1, [], tree => tree
  | bound + 1, (source, copied) :: pending, tree =>
      let (pairs, grown) := copyChildren copied (tree.children source) tree
      copyPending bound (pairs.reverse ++ pending) grown

end Tree

def TreeEdit.deepCopy (id : NodeId) : TreeEdit NodeId := do
  requireNode id
  let tree ← get
  match tree.node? id with
  | none => throw (.unknownNode id)
  | some node =>
      let copied := tree.size
      set ((tree.push none node.rule node.text node.span).copyPending tree.size [(id, copied)])
      return copied

end SyntaxGraph
