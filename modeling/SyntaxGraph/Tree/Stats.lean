import SyntaxGraph.Tree.BottomUp

/-!
Two evaluations from the leaves upwards: size, height and leaf count of every subtree, and the
order in which nodes are visited.
-/

set_option autoImplicit false

namespace SyntaxGraph

/-- Height counts the nodes on the longest path down. -/
structure SubtreeStats where
  size : Nat
  height : Nat
  leaves : Nat
deriving DecidableEq, Repr, Inhabited

structure StatsReport where
  summary : SubtreeStats
  perNode : NodeValues SubtreeStats
deriving DecidableEq, Repr

namespace SubtreeStats

def leaf : SubtreeStats := ⟨1, 1, 1⟩

/-- Statistics of a node over its children; one child without statistics leaves it without. -/
def combine (children : List (Option SubtreeStats)) : Option SubtreeStats := do
  let known ← children.mapM id
  return ⟨(known.map (·.size)).foldl (· + ·) 1, (known.map (·.height)).foldl max 0 + 1,
    (known.map (·.leaves)).foldl (· + ·) 0⟩

def transform : Transform Unit SubtreeStats StatsReport where
  transform tree id values state :=
    match tree.children id with
    | [] => (.ok leaf, state)
    | children =>
        match combine (children.map values.find?) with
        | some stats => (.ok stats, state)
        | none => (.error (.transform id "child processed out of order"), state)
  finalize tree values _ :=
    match tree.root with
    | none => .error .emptyTree
    | some root =>
        match values.find? root with
        | some summary => .ok ⟨summary, values⟩
        | none => .error (.finalize "root was never processed")

end SubtreeStats

structure VisitPlan where
  failingRule : Option String
  failsAtEnd : Bool
deriving DecidableEq, Repr

structure VisitReport where
  order : List NodeId
  root : String
deriving DecidableEq, Repr

namespace VisitPlan

/-- Writes every node as its rule with its children's results in brackets; the state holds the
visited nodes, the last one first. -/
def transform (plan : VisitPlan) : Transform (List NodeId) String VisitReport where
  transform tree id values visited :=
    if plan.failingRule = some (tree.rule id) then
      (.error (.transform id s!"boom after {visited.length}"), visited)
    else
      let inner := (tree.children id).map fun child => (values.find? child).getD ""
      (.ok (tree.rule id ++ "[" ++ " ".intercalate inner ++ "]"), id :: visited)
  finalize tree values visited :=
    if plan.failsAtEnd then .error (.finalize s!"{values.count} results")
    else
      let root := (tree.root.bind values.find?).getD ""
      .ok ⟨visited.reverse, root⟩

end VisitPlan

namespace Tree

def stats (tree : Tree) : Except ProcessingFailure StatsReport :=
  tree.processBottomUp SubtreeStats.transform ()

end Tree

end SyntaxGraph
