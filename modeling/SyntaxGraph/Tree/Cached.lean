import SyntaxGraph.Tree.BottomUp

/-!
Trees that keep their children-first order. It is worked out when it is asked for, and kept until the
next edit that changes the tree.
-/

set_option autoImplicit false

namespace SyntaxGraph

structure CachedTree where
  tree : Tree
  /-- The children-first order, once it has been asked for. -/
  order : Option (List NodeId)
deriving DecidableEq, Repr, Inhabited

namespace CachedTree

def ofTree (tree : Tree) : CachedTree := ⟨tree, none⟩

def dropOrder (cached : CachedTree) : CachedTree := { cached with order := none }

def topologicalOrder (cached : CachedTree) : List NodeId × CachedTree :=
  match cached.order with
  | some order => (order, cached)
  | none =>
      let order := cached.tree.topologicalOrder
      (order, { cached with order := some order })

def processBottomUp {State Output Summary : Type} (cached : CachedTree)
    (transform : Transform State Output Summary) (state : State) :
    Except ProcessingFailure Summary × CachedTree :=
  let (order, after) := cached.topologicalOrder
  (cached.tree.processOrdered order transform state, after)

end CachedTree

abbrev CachedEdit := ExceptT TreeError (StateM CachedTree)

namespace CachedEdit

/-- An edit of the tree alone. The order is kept, even one that the edit makes wrong. -/
def onTree {Result : Type} (edit : TreeEdit Result) : CachedEdit Result := ExceptT.mk do
  let cached ← get
  let (outcome, tree) := edit.run.run cached.tree
  set { cached with tree := tree }
  return outcome

def allocate (parent : Option NodeId) (rule text : String) (span : Span) : CachedEdit NodeId := do
  let id ← onTree (TreeEdit.allocate parent rule text span)
  modify CachedTree.dropOrder
  return id

/-- The root is chosen with the order dropped already. -/
def addNode (parent : Option NodeId) (rule text : String) (span : Span) : CachedEdit NodeId := do
  match parent with
  | some parent => onTree (TreeEdit.requireNode parent)
  | none => pure ()
  let id ← allocate parent rule text span
  onTree (modify fun tree =>
    if parent.isNone && tree.root.isNone then { tree with root := some id } else tree)
  return id

def attachChild (parent child : NodeId) : CachedEdit Unit := do
  onTree (TreeEdit.attachChild parent child)
  modify CachedTree.dropOrder

def pushChild (parent : NodeId) (rule text : String) (span : Span) : CachedEdit NodeId := do
  let id ← addNode (some parent) rule text span
  attachChild parent id
  return id

def replaceChild (parent : NodeId) (index : Nat) (replacement : NodeId) : CachedEdit NodeId := do
  let old ← onTree (TreeEdit.replaceChild parent index replacement)
  if old = replacement then
    return old
  modify CachedTree.dropOrder
  return old

def setRoot (id : NodeId) : CachedEdit Unit := do
  onTree (TreeEdit.setRoot id)
  modify CachedTree.dropOrder

/-- The order is dropped with the copied root, before any copy below it is listed. -/
def deepCopy (id : NodeId) : CachedEdit NodeId := do
  onTree (TreeEdit.requireNode id)
  let source := (← get).tree
  match source.node? id with
  | none => throw (.unknownNode id)
  | some node =>
      let copied ← allocate none node.rule node.text node.span
      onTree (modify fun grown => grown.copyPending source.size [(id, copied)])
      return copied

end CachedEdit

end SyntaxGraph
