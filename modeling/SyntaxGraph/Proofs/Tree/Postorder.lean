import Mathlib.Data.List.Perm.Basic
import SyntaxGraph.Proofs.Tree.Walk

/-!
Recursion over a subtree from below, and the children-first order as a case of it. The walk off a
stack of marked nodes yields that order, which holds the nodes of the pre-order with the root last.
-/

set_option autoImplicit false

namespace SyntaxGraph

namespace Tree

variable {Value : Type}

def foldWithin (tree : Tree) (bottom : Value) (combine : NodeId → List Value → Value) :
    Nat → NodeId → Value
  | 0, _ => bottom
  | levels + 1, node =>
      combine node ((tree.children node).map (tree.foldWithin bottom combine levels))

/-- The value of a node from those of its children. The bottom value is that of no node. -/
def fold (tree : Tree) (bottom : Value) (combine : NodeId → List Value → Value)
    (node : NodeId) : Value := tree.foldWithin bottom combine tree.size node

def subtreeUpwards (tree : Tree) : NodeId → List NodeId :=
  tree.fold [] fun node below => below.flatten ++ [node]

variable {tree : Tree}

theorem fold_within_stable (bottom : Value) (combine : NodeId → List Value → Value)
    {levels more : Nat} {node : NodeId} (fits : tree.FitsWithin levels node)
    (larger : levels ≤ more) :
    tree.foldWithin bottom combine more node = tree.foldWithin bottom combine levels node := by
  induction levels generalizing more node with
  | zero => exact fits.elim
  | succ levels induction =>
      cases more with
      | zero => omega
      | succ more =>
          rw [foldWithin, foldWithin]
          congr 1
          apply List.map_congr_left
          intro child listed
          exact induction (fits child listed) (by omega)

theorem fold_unfold (consistent : tree.Consistent) (acyclic : tree.Acyclic) {node : NodeId}
    (known : tree.contains node = true) (bottom : Value)
    (combine : NodeId → List Value → Value) :
    tree.fold bottom combine node =
      combine node ((tree.children node).map (tree.fold bottom combine)) := by
  have fits := fits_within_size consistent acyclic known
  have deeper := fold_within_stable bottom combine fits (Nat.le_succ tree.size)
  rw [fold, ← deeper]
  rfl

theorem subtree_upwards_unfold (consistent : tree.Consistent) (acyclic : tree.Acyclic)
    {node : NodeId} (known : tree.contains node = true) :
    tree.subtreeUpwards node = (tree.children node).flatMap tree.subtreeUpwards ++ [node] := by
  rw [subtreeUpwards, fold_unfold consistent acyclic known]
  rfl

theorem subtree_upwards_perm (levels : Nat) (node : NodeId) :
    (tree.foldWithin [] (fun node below => below.flatten ++ [node]) levels node).Perm
      (tree.subtreeWithin levels node) := by
  induction levels generalizing node with
  | zero => exact List.Perm.refl []
  | succ levels induction =>
      rw [foldWithin, subtreeWithin]
      refine (List.perm_append_singleton node _).trans (List.Perm.cons node ?_)
      exact List.Perm.flatMap_left _ fun child _ => induction child

-- The walk off a stack

def yieldOf (tree : Tree) : NodeId × Bool → List NodeId
  | (node, true) => [node]
  | (node, false) => tree.subtreeUpwards node

/-- The nodes that come up on account of an entry of the stack: one that is not marked yet comes up
twice. -/
def visitsOf (tree : Tree) : NodeId × Bool → List NodeId
  | (node, true) => [node]
  | (node, false) => tree.subtreeUpwards node ++ tree.subtreeUpwards node

theorem length_visits_unmarked (children : List NodeId) :
    ((children.map (·, false)).flatMap tree.visitsOf).length =
      2 * (children.flatMap tree.subtreeUpwards).length := by
  induction children with
  | nil => rfl
  | cons child rest induction =>
      simp only [List.map_cons, List.flatMap_cons, List.length_append, induction, visitsOf]
      omega

theorem postorder_stack_subtrees (consistent : tree.Consistent) (acyclic : tree.Acyclic)
    (bound : Nat) (stack : List (NodeId × Bool))
    (known : ∀ entry ∈ stack, tree.contains entry.1 = true)
    (enough : (stack.flatMap tree.visitsOf).length ≤ bound) :
    tree.postorderStack bound stack = stack.flatMap tree.yieldOf := by
  induction bound generalizing stack with
  | zero =>
      cases stack with
      | nil => rfl
      | cons entry stack =>
          obtain ⟨node, marked⟩ := entry
          have unfolded := subtree_upwards_unfold consistent acyclic (known (node, marked) (by simp))
          cases marked <;> simp [visitsOf, unfolded] at enough
  | succ bound induction =>
      match stack with
      | [] => rfl
      | (node, true) :: stack =>
          rw [postorderStack, List.flatMap_cons, yieldOf, List.singleton_append]
          congr 1
          apply induction
          · intro entry member
            exact known entry (List.mem_cons_of_mem _ member)
          · simp only [List.flatMap_cons, visitsOf, List.length_append, List.length_singleton] at enough
            omega
      | (node, false) :: stack =>
          have nodeKnown : tree.contains node = true := known (node, false) (by simp)
          have unfolded := subtree_upwards_unfold consistent acyclic nodeKnown
          have split : ((tree.children node).map (·, false)).flatMap tree.yieldOf =
              (tree.children node).flatMap tree.subtreeUpwards := by
            rw [List.flatMap_map]
            rfl
          rw [postorderStack, induction]
          · simp only [List.flatMap_append, List.flatMap_cons, yieldOf, unfolded, split,
              List.append_assoc]
          · intro entry member
            rcases List.mem_append.1 member with listed | waiting
            · obtain ⟨child, childListed, rfl⟩ := List.mem_map.1 listed
              exact consistent.child_known childListed
            · rcases List.mem_cons.1 waiting with same | later
              · rw [same]
                exact nodeKnown
              · exact known entry (List.mem_cons_of_mem _ later)
          · simp only [List.flatMap_cons, visitsOf, unfolded, List.length_append,
              List.length_singleton] at enough
            simp only [List.flatMap_append, List.length_append, length_visits_unmarked,
              List.flatMap_cons, visitsOf, List.length_singleton]
            omega

theorem postorder_stack_root (consistent : tree.Consistent) (acyclic : tree.Acyclic)
    {root : NodeId} (rooted : tree.root = some root) {bound : Nat} (enough : 2 * tree.size ≤ bound) :
    tree.postorderStack bound [(root, false)] = tree.subtreeUpwards root := by
  have known := consistent.root_known root rooted
  rw [postorder_stack_subtrees consistent acyclic]
  · simp [yieldOf]
  · simpa using known
  · have same : (tree.subtreeUpwards root).length = (tree.subtree root).length :=
      (subtree_upwards_perm tree.size root).length_eq
    have short := subtree_length_le consistent acyclic known
    simp only [List.flatMap_cons, List.flatMap_nil, visitsOf, List.length_append, List.length_nil]
    omega

theorem topological_order_eq (consistent : tree.Consistent) (acyclic : tree.Acyclic)
    {root : NodeId} (rooted : tree.root = some root) :
    tree.topologicalOrder = tree.subtreeUpwards root := by
  rw [topologicalOrder, rooted]
  exact postorder_stack_root consistent acyclic rooted (Nat.le_refl _)

theorem topological_order_of_rootless (rootless : tree.root = none) : tree.topologicalOrder = [] := by
  rw [topologicalOrder, rootless]
  cases 2 * tree.size <;> rfl

theorem topological_order_perm (consistent : tree.Consistent) (acyclic : tree.Acyclic) :
    tree.topologicalOrder.Perm tree.preorder := by
  cases rooted : tree.root with
  | none => rw [topological_order_of_rootless rooted, preorder_of_rootless rooted]
  | some root =>
      rw [topological_order_eq consistent acyclic rooted,
        preorder_eq_subtree consistent acyclic rooted]
      exact subtree_upwards_perm tree.size root

theorem last_of_topological_order (consistent : tree.Consistent) (acyclic : tree.Acyclic) :
    tree.topologicalOrder.getLast? = tree.root := by
  cases rooted : tree.root with
  | none =>
      rw [topological_order_of_rootless rooted]
      rfl
  | some root =>
      rw [topological_order_eq consistent acyclic rooted,
        subtree_upwards_unfold consistent acyclic (consistent.root_known root rooted)]
      simp

end Tree

end SyntaxGraph
