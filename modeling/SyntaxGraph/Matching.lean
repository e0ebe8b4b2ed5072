import SyntaxGraph.Captures
import SyntaxGraph.Pattern

/-!
Matching a pattern at a node yields one set of captures for every way in which it matches, in a
fixed order and with repetitions. Child patterns are matched in order, each one strictly behind
the child which the one before it took; an optional one is left out only where nothing behind
it would match otherwise.
-/

set_option autoImplicit false

namespace SyntaxGraph

def withLater {Item : Type} : List Item → List (Item × List Item)
  | [] => []
  | item :: later => (item, later) :: withLater later

namespace Tree

def accepts (tree : Tree) (node : NodeId) (form : NodeForm) : Bool :=
  (form.rule = Pattern.descendants || form.rule = Pattern.wildcard || form.rule = tree.rule node) &&
    !(tree.children node).any fun child => form.forbidden.contains (tree.rule child)

def seedCaptures (tree : Tree) (node : NodeId) (form : NodeForm) : Captures :=
  if form.captures.isEmpty then StringMap.empty.insert (tree.rule node) node
  else Captures.bindAll form.captures node

/-- All ways to match patterns in order against siblings, given the matches at one of them. -/
def matchSiblings (tree : Tree) (matchesAt : NodeId → Pattern → List Captures) :
    List Pattern → List NodeId → Captures → List Captures
  | [], _, captures => [captures]
  | pattern :: rest, siblings, captures =>
      let found := (withLater siblings).flatMap fun (child, later) =>
        (matchesAt child pattern).flatMap fun bound =>
          tree.matchSiblings matchesAt rest later (captures.merge tree bound)
      if found.isEmpty && pattern.isOptional then
        tree.matchSiblings matchesAt rest siblings captures
      else found

def matchForm (tree : Tree) : Nat → NodeId → NodeForm → List Captures
  | 0, _, _ => []
  | levels + 1, node, form =>
      if tree.accepts node form then
        let matchesAt (child : NodeId) (pattern : Pattern) : List Captures :=
          pattern.nodeForms.flatMap (tree.matchForm levels child)
        let here := tree.matchSiblings matchesAt form.children (tree.children node)
          (tree.seedCaptures node form)
        if form.rule = Pattern.descendants then
          here ++ (tree.children node).flatMap fun child => tree.matchForm levels child form
        else here
      else []

def matchAt (tree : Tree) (node : NodeId) (pattern : Pattern) : List Captures :=
  pattern.nodeForms.flatMap (tree.matchForm tree.size node)

def matchChildren (tree : Tree) (children : List NodeId) (patterns : List Pattern)
    (captures : Captures) (start : Nat) : List Captures :=
  tree.matchSiblings tree.matchAt patterns (children.drop start) captures

def siblingsReadUnknown (tree : Tree) : List Pattern → List NodeId → Captures → Bool
  | [], _, _ => false
  | pattern :: rest, siblings, captures =>
      let found := (withLater siblings).flatMap fun (child, later) =>
        (tree.matchAt child pattern).map fun bound => (bound, later)
      found.any (fun (bound, later) =>
        captures.mergeReadsUnknown tree bound ||
          tree.siblingsReadUnknown rest later (captures.merge tree bound)) ||
      (pattern.isOptional &&
        (found.all fun (bound, later) =>
          (tree.matchSiblings tree.matchAt rest later (captures.merge tree bound)).isEmpty) &&
        tree.siblingsReadUnknown rest siblings captures)

def matchAt? (tree : Tree) (node : NodeId) (pattern : Pattern) : Option (List Captures) :=
  if tree.contains node then some (tree.matchAt node pattern) else none

def matchChildren? (tree : Tree) (node : NodeId) (patterns : List Pattern) (captures : Captures)
    (start : Nat) : Option (List Captures) :=
  let children := tree.children node
  if tree.contains node && !tree.siblingsReadUnknown patterns (children.drop start) captures then
    some (tree.matchChildren children patterns captures start)
  else none

end Tree

end SyntaxGraph
