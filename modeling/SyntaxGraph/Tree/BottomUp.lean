import SyntaxGraph.Tree.Order

/-!
Evaluation of a tree from the leaves upwards. A queue starts with the leaves in pre-order; a
parent joins it when its last child is done. The first failure ends the evaluation, and so does a
child too many: no count of children goes below zero.
-/

set_option autoImplicit false

namespace SyntaxGraph

inductive ProcessingError where
  | transform (node : NodeId) (reason : String)
  | finalize (reason : String)
  | emptyTree
deriving DecidableEq, Repr

def ProcessingError.message : ProcessingError → String
  | .transform node reason => s!"transform failed at node #{node}: {reason}"
  | .finalize reason => s!"finalize failed: {reason}"
  | .emptyTree => "tree has no root"

inductive ProcessingFailure where
  | refused (error : ProcessingError)
  /-- A child too many of the node was done. -/
  | overflow (node : NodeId)
deriving DecidableEq, Repr

abbrev NodeValues (Value : Type) := Array (Option Value)

def NodeValues.find? {Value : Type} (values : NodeValues Value) (id : NodeId) : Option Value :=
  values[id]?.join

def NodeValues.count {Value : Type} (values : NodeValues Value) : Nat :=
  values.countP Option.isSome

/-- A value for every node from the values of its children, with a state of its own, and a
summary once every node has one. -/
structure Transform (State Output Summary : Type) where
  transform : Tree → NodeId → NodeValues Output → State → Except ProcessingError Output × State
  finalize : Tree → NodeValues Output → State → Except ProcessingError Summary

namespace Tree

def childCounts (tree : Tree) (order : List NodeId) : NodeValues Nat :=
  order.foldl (fun counts id => counts.setIfInBounds id (some (tree.children id).length))
    (Array.replicate tree.size none)

/-- Counts a finished child off; the parent is ready when its count falls from one to zero. From a
count which is zero already nothing can be taken. -/
def countOff (counts : NodeValues Nat) (parent : Option NodeId) :
    Except ProcessingFailure (NodeValues Nat × List NodeId) :=
  match parent with
  | none => .ok (counts, [])
  | some parent =>
      match NodeValues.find? counts parent with
      | none => .ok (counts, [])
      | some 0 => .error (.overflow parent)
      | some 1 => .ok (counts.setIfInBounds parent (some 0), [parent])
      | some (count + 2) => .ok (counts.setIfInBounds parent (some (count + 1)), [])

/-- Works off the queue; the bound is the number of nodes to be done. -/
def processQueue {State Output Summary : Type} (tree : Tree)
    (transform : Transform State Output Summary) :
    Nat → List NodeId → NodeValues Nat → NodeValues Output → State →
      Except ProcessingFailure (NodeValues Output) × State
  | 0, _, _, values, state => (.ok values, state)
  | _ + 1, [], _, values, state => (.ok values, state)
  | bound + 1, id :: queue, counts, values, state =>
      match transform.transform tree id values state with
      | (.error error, state) => (.error (.refused error), state)
      | (.ok value, state) =>
          match countOff counts (tree.parent? id) with
          | .error failure => (.error failure, state)
          | .ok (counts, ready) =>
              tree.processQueue transform bound (queue ++ ready) counts
                (values.setIfInBounds id (some value)) state

def processOrdered {State Output Summary : Type} (tree : Tree) (order : List NodeId)
    (transform : Transform State Output Summary) (state : State) :
    Except ProcessingFailure Summary :=
  if order.isEmpty then .error (.refused .emptyTree)
  else
    match tree.processQueue transform order.length tree.leaves (tree.childCounts order)
        (Array.replicate tree.size none) state with
    | (.error failure, _) => .error failure
    | (.ok values, state) => (transform.finalize tree values state).mapError .refused

def processBottomUp {State Output Summary : Type} (tree : Tree)
    (transform : Transform State Output Summary) (state : State) :
    Except ProcessingFailure Summary :=
  tree.processOrdered tree.topologicalOrder transform state

end Tree

end SyntaxGraph
