import SyntaxGraph.StringMap
import SyntaxGraph.Tree.Basic

/-!
Captures: the names bound by a match, each to a node. When the bindings of two matches are
merged, the later one wins, except over a node whose source text is the capture's own name.
-/

set_option autoImplicit false

namespace SyntaxGraph

abbrev Captures := StringMap NodeId

namespace Captures

def bindAll (names : List String) (node : NodeId) : Captures :=
  names.foldl (fun captures name => captures.insert name node) .empty

/-- A binding is settled when the bound node reads as the name itself. -/
def isSettled (tree : Tree) (captures : Captures) (name : String) : Bool :=
  match captures.find? name with
  | some bound => tree.text? bound = some name
  | none => false

def mergeEntry (tree : Tree) (captures : Captures) (entry : String × NodeId) : Captures :=
  if isSettled tree captures entry.1 then captures else captures.insert entry.1 entry.2

/-- Takes over every incoming binding whose name is not settled. -/
def merge (tree : Tree) (captures incoming : Captures) : Captures :=
  incoming.entries.foldl (mergeEntry tree) captures

/-- Whether merging looks at the text of a node which the tree never issued. -/
def mergeReadsUnknown (tree : Tree) (captures incoming : Captures) : Bool :=
  incoming.keys.any fun name =>
    match captures.find? name with
    | some bound => !tree.contains bound
    | none => false

def merge? (tree : Tree) (captures incoming : Captures) : Option Captures :=
  if mergeReadsUnknown tree captures incoming then none else some (merge tree captures incoming)

end Captures

end SyntaxGraph
