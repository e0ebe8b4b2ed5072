import SyntaxGraph.Converter
import SyntaxGraph.Matching

/-!
Searching a tree for the matches of a list of patterns. Nodes are visited in pre-order, and at each
node patterns in their order. Matches found below a node hang under the last match accepted there;
where none was, they move up.
-/

set_option autoImplicit false

namespace SyntaxGraph

structure PatternEntry where
  pattern : Pattern
  predicates : List Predicate
  converters : List Converter
deriving Inhabited

abbrev PatternSet := List PatternEntry

structure Match where
  start : NodeId
  pattern : Nat
  captures : Captures
deriving DecidableEq, Inhabited

inductive MatchNode where
  | mk (found : Match) (children : List MatchNode)
deriving Inhabited

namespace MatchNode

def found : MatchNode → Match
  | mk found _ => found

def children : MatchNode → List MatchNode
  | mk _ children => children

mutual

def flatten : MatchNode → List Match
  | mk found children => found :: flattenAll children

def flattenAll : List MatchNode → List Match
  | [] => []
  | node :: rest => flatten node ++ flattenAll rest

end

def matchCount (node : MatchNode) : Nat := node.flatten.length

/-- Matches side by side, of which the last one gets everything below. -/
def hangUnderLast (below : List MatchNode) : List Match → List MatchNode
  | [] => []
  | [last] => [mk last below]
  | first :: rest => mk first [] :: hangUnderLast below rest

end MatchNode

structure SearchInput where
  patterns : PatternSet
  tree : Tree
  builder : Option GraphBuilder

namespace SearchInput

/-- Whether a candidate is accepted, and what is reported about it. A predicate that lacks an
enclosing entity is no obstacle. -/
def judge (input : SearchInput) (ancestors : List NodeId) (candidate : Match)
    (predicates : List Predicate) : Bool × List Event :=
  let site : MatchSite := ⟨input.tree, candidate.start, candidate.captures, ancestors⟩
  match Predicate.allPass ⟨site, input.builder⟩ predicates with
  | .ok passed => (passed, [])
  | .error cause =>
      if cause.isMissingAncestor then
        (true, [.lenientPass candidate.pattern candidate.start cause])
      else (false, [.matchRejected candidate.pattern candidate.start cause])

def candidatesAt (input : SearchInput) (node : NodeId) : List (Match × List Predicate) :=
  input.patterns.zipIdx.flatMap fun (entry, index) =>
    (input.tree.matchAt node entry.pattern).map fun captures =>
      (⟨node, index, captures⟩, entry.predicates)

def acceptedAt (input : SearchInput) (ancestors : List NodeId) (node : NodeId) :
    List Match × List Event :=
  let judged := (input.candidatesAt node).map fun (candidate, predicates) =>
    (candidate, input.judge ancestors candidate predicates)
  (judged.filterMap fun (candidate, passed, _) => if passed then some candidate else none,
    judged.flatMap fun (_, _, events) => events)

/-- Searches a subtree down to a number of levels. The ancestors are the nodes above with an
accepted match. -/
def searchFrom (input : SearchInput) :
    Nat → List NodeId → NodeId → List MatchNode × List Event
  | 0, _, _ => ([], [])
  | levels + 1, ancestors, node =>
      let (here, events) := input.acceptedAt ancestors node
      let inner := if here.isEmpty then ancestors else ancestors ++ [node]
      let below := (input.tree.children node).map (input.searchFrom levels inner)
      let forest := below.flatMap (·.1)
      (if here.isEmpty then forest else MatchNode.hangUnderLast forest here,
        events ++ below.flatMap (·.2))

def search (input : SearchInput) : List MatchNode × List Event :=
  match input.tree.root with
  | none => ([], [])
  | some root => input.searchFrom input.tree.size [] root

end SearchInput

def findMatches (patterns : PatternSet) (tree : Tree) : List Match :=
  MatchNode.flattenAll (SearchInput.search ⟨patterns, tree, none⟩).1

end SyntaxGraph
