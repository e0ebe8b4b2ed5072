import SyntaxGraph.Tree.Basic

/-!
Concrete syntax as a grammar delivers it, and its conversion. Named nodes keep their kind as
rule and anonymous tokens get the empty rule. Node ids follow pre-order.
-/

set_option autoImplicit false

namespace SyntaxGraph

structure ConcreteToken where
  kind : String
  named : Bool
  startByte : Nat
  endByte : Nat
  row : Nat
  column : Nat
deriving DecidableEq, Repr, Inhabited

inductive ConcreteTree where
  | node (token : ConcreteToken) (children : List ConcreteTree)
deriving Repr, Inhabited

structure ConcreteRow where
  parent : Option Nat
  token : ConcreteToken
deriving DecidableEq, Repr, Inhabited

namespace ConcreteTree

mutual

def size : ConcreteTree → Nat
  | .node _ children => sizes children + 1

def sizes : List ConcreteTree → Nat
  | [] => 0
  | first :: rest => first.size + sizes rest

end

theorem sizes_append (first second : List ConcreteTree) :
    sizes (first ++ second) = sizes first + sizes second := by
  induction first with
  | nil => rw [List.nil_append, sizes, Nat.zero_add]
  | cons tree rest induction => rw [List.cons_append, sizes, sizes, induction, Nat.add_assoc]

/-- Children lists by position, filled from the last row to the first: a row's own children
all stand behind it. The result holds the trees without a parent. -/
def collectRows : Nat → List ConcreteRow → Array (List ConcreteTree) × List ConcreteTree →
    Array (List ConcreteTree) × List ConcreteTree
  | _, [], collected => collected
  | position, row :: rest, collected =>
      let (lists, roots) := collectRows (position + 1) rest collected
      let tree := node row.token (lists[position]?.getD [])
      match row.parent with
      | none => (lists, tree :: roots)
      | some parent => (lists.modify parent (tree :: ·), roots)

def ofRows? (rows : List ConcreteRow) : Option ConcreteTree :=
  (collectRows 0 rows (Array.replicate rows.length [], [])).2.head?

end ConcreteTree

/-- The bytes from start to end as a text, unless the range leaves the source or cuts a
character. -/
def sliceBytes? (source : String) (startByte endByte : Nat) : Option String :=
  if endByte ≤ source.utf8ByteSize then
    String.fromUTF8? (source.toUTF8.extract startByte endByte)
  else none

namespace ConcreteToken

def rule (token : ConcreteToken) : String := if token.named then token.kind else ""

def text (token : ConcreteToken) (source : String) : String :=
  (sliceBytes? source token.startByte token.endByte).getD ""

def span (token : ConcreteToken) : Span :=
  ⟨token.startByte, token.endByte, token.row + 1, token.column⟩

end ConcreteToken

namespace TreeEdit

/-- Works off concrete nodes, each with the node under which it is to be listed, the first one
first. Its own children come next, so that they are added before whatever else is pending. -/
def convertPending (source : String) : List (Option NodeId × ConcreteTree) → TreeEdit Unit
  | [] => pure ()
  | (parent, .node token children) :: pending => do
      let id ← addNode parent token.rule (token.text source) token.span
      match parent with
      | some parent => attachChild parent id
      | none => setRoot id
      convertPending source (children.map (some id, ·) ++ pending)
termination_by pending => ConcreteTree.sizes (pending.map Prod.snd)
decreasing_by
  simp [ConcreteTree.size, ConcreteTree.sizes, ConcreteTree.sizes_append, Function.comp_def]

def convert (source : String) (concrete : ConcreteTree) : TreeEdit Unit :=
  convertPending source [(none, concrete)]

end TreeEdit

def Tree.ofConcrete (source : String) (concrete : ConcreteTree) : Tree :=
  ((TreeEdit.convert source concrete).run.run .empty).2

end SyntaxGraph
