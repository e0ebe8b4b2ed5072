import SyntaxGraph.Proofs.Tree.Links

/-!
The pre-order of a tree as a recursion over child links. The walk off a stack yields the same
nodes in the same order. In a consistent tree with acyclic links no node comes twice, so the walk
ends within its bound.
-/

set_option autoImplicit false

namespace SyntaxGraph

namespace Tree

def subtreeWithin (tree : Tree) : Nat → NodeId → List NodeId
  | 0, _ => []
  | levels + 1, node => node :: (tree.children node).flatMap (tree.subtreeWithin levels)

def subtree (tree : Tree) (node : NodeId) : List NodeId := tree.subtreeWithin tree.size node

variable {tree : Tree}

theorem subtree_within_stable (levels more : Nat) (node : NodeId)
    (fits : tree.FitsWithin levels node) (larger : levels ≤ more) :
    tree.subtreeWithin more node = tree.subtreeWithin levels node := by
  induction levels generalizing more node with
  | zero => exact fits.elim
  | succ levels induction =>
      cases more with
      | zero => omega
      | succ more =>
          simp only [subtreeWithin]
          congr 1
          apply List.flatMap_congr
          intro child listed
          exact induction more child (fits child listed) (by omega)

theorem FitsWithin.subtree_unfold {node : NodeId} (fits : tree.FitsWithin tree.size node) :
    tree.subtree node = node :: (tree.children node).flatMap tree.subtree := by
  cases count : tree.size with
  | zero =>
      rw [count] at fits
      exact fits.elim
  | succ levels =>
      rw [count] at fits
      rw [subtree, count, subtreeWithin]
      congr 1
      apply List.flatMap_congr
      intro child listed
      rw [subtree, count]
      exact (subtree_within_stable levels (levels + 1) child (fits child listed) (by omega)).symm

theorem FitsWithin.below {node : NodeId} (fits : tree.FitsWithin tree.size node) :
    ∀ child ∈ tree.children node, tree.FitsWithin tree.size child := by
  intro child listed
  exact fits.mono (Nat.le_succ tree.size) child listed

theorem subtree_unfold (consistent : tree.Consistent) (acyclic : tree.Acyclic) {node : NodeId}
    (known : tree.contains node = true) :
    tree.subtree node = node :: (tree.children node).flatMap tree.subtree :=
  (fits_within_size consistent acyclic known).subtree_unfold

theorem reaches_of_mem_subtree_within (levels : Nat) (node found : NodeId)
    (member : found ∈ tree.subtreeWithin levels node) :
    Relation.ReflTransGen tree.IsChild node found := by
  induction levels generalizing node with
  | zero => simp [subtreeWithin] at member
  | succ levels induction =>
      simp only [subtreeWithin, List.mem_cons, List.mem_flatMap] at member
      rcases member with same | ⟨child, listed, below⟩
      · rw [same]
      · exact Relation.ReflTransGen.head listed (induction child below)

theorem mem_subtree_iff (consistent : tree.Consistent) (acyclic : tree.Acyclic)
    {node found : NodeId} (known : tree.contains node = true) :
    found ∈ tree.subtree node ↔ Relation.ReflTransGen tree.IsChild node found := by
  constructor
  · exact reaches_of_mem_subtree_within tree.size node found
  · intro reaches
    induction reaches using Relation.ReflTransGen.head_induction_on with
    | refl =>
        rw [subtree_unfold consistent acyclic known]
        exact List.mem_cons_self
    | head listed _ induction =>
        rw [subtree_unfold consistent acyclic known]
        have below := induction (consistent.child_known listed)
        exact List.mem_cons_of_mem _ (List.mem_flatMap.2 ⟨_, listed, below⟩)

/-- Of two nodes above a third one, one is above the other, since parents are unique. -/
theorem reaches_linear (consistent : tree.Consistent) {left right node : NodeId}
    (fromLeft : Relation.ReflTransGen tree.IsChild left node)
    (fromRight : Relation.ReflTransGen tree.IsChild right node) :
    Relation.ReflTransGen tree.IsChild left right ∨
      Relation.ReflTransGen tree.IsChild right left := by
  induction fromLeft with
  | refl => exact Or.inr fromRight
  | tail fromLeft listed induction =>
      rename_i parent child
      rcases Relation.ReflTransGen.cases_tail fromRight with same | ⟨other, toOther, otherListed⟩
      · subst same
        exact Or.inl (fromLeft.tail listed)
      · have sameParent : some other = some parent :=
          (consistent.parent_of_child _ _ otherListed).symm.trans
            (consistent.parent_of_child _ _ listed)
        rw [Option.some.inj sameParent] at toOther
        exact induction toOther

/-- Siblings have no descendant in common: otherwise one would be below the other, and hence their
parent below itself. -/
theorem siblings_disjoint (consistent : tree.Consistent) (acyclic : tree.Acyclic)
    {parent left right node : NodeId} (leftListed : left ∈ tree.children parent)
    (rightListed : right ∈ tree.children parent) (different : left ≠ right)
    (fromLeft : Relation.ReflTransGen tree.IsChild left node) :
    ¬Relation.ReflTransGen tree.IsChild right node := by
  have apart : ∀ {upper lower : NodeId}, upper ∈ tree.children parent →
      lower ∈ tree.children parent → upper ≠ lower →
        ¬Relation.ReflTransGen tree.IsChild upper lower := by
    intro upper lower upperListed lowerListed distinct reaches
    rcases Relation.ReflTransGen.cases_tail reaches with same | ⟨last, toLast, lastListed⟩
    · exact distinct same.symm
    · have sameParent : some last = some parent :=
        (consistent.parent_of_child _ _ lastListed).symm.trans
          (consistent.parent_of_child _ _ lowerListed)
      rw [Option.some.inj sameParent] at toLast
      exact acyclic parent (Relation.TransGen.head' upperListed toLast)
  intro fromRight
  rcases reaches_linear consistent fromLeft fromRight with down | up
  · exact apart leftListed rightListed different down
  · exact apart rightListed leftListed different.symm up

theorem subtree_within_nodup (consistent : tree.Consistent) (acyclic : tree.Acyclic)
    (levels : Nat) (node : NodeId) : (tree.subtreeWithin levels node).Nodup := by
  induction levels generalizing node with
  | zero => simp [subtreeWithin]
  | succ levels induction =>
      simp only [subtreeWithin]
      refine List.nodup_cons.2 ⟨?_, ?_⟩
      · intro member
        obtain ⟨child, listed, below⟩ := List.mem_flatMap.1 member
        exact acyclic node (Relation.TransGen.head' listed
          (reaches_of_mem_subtree_within levels child node below))
      · refine List.nodup_flatMap.2 ⟨fun child _ => induction child, ?_⟩
        refine (consistent.children_nodup node).imp_of_mem ?_
        intro left right leftListed rightListed different found leftBelow rightBelow
        exact siblings_disjoint consistent acyclic leftListed rightListed different
          (reaches_of_mem_subtree_within levels left found leftBelow)
          (reaches_of_mem_subtree_within levels right found rightBelow)

theorem subtree_length_le (consistent : tree.Consistent) (acyclic : tree.Acyclic) {node : NodeId}
    (known : tree.contains node = true) : (tree.subtree node).length ≤ tree.size := by
  have inside : tree.subtree node ⊆ List.range tree.size := by
    intro found member
    obtain ⟨above, descent⟩ :=
      descent_of_reaches (reaches_of_mem_subtree_within tree.size node found member)
    have foundKnown := descent.known consistent.lists_known known found (by simp)
    simpa [contains] using foundKnown
  have short := List.Nodup.length_le_of_subset
    (subtree_within_nodup consistent acyclic tree.size node) inside
  rw [List.length_range] at short
  exact short

/-- The stack holds the subtrees that are still to be walked, the next one on top. -/
theorem preorder_stack_of_fits (bound : Nat) (stack : List NodeId)
    (fits : ∀ node ∈ stack, tree.FitsWithin tree.size node)
    (enough : (stack.flatMap tree.subtree).length ≤ bound) :
    tree.preorderStack bound stack = stack.flatMap tree.subtree := by
  induction bound generalizing stack with
  | zero =>
      rw [preorderStack]
      exact (List.eq_nil_of_length_eq_zero (by omega)).symm
  | succ bound induction =>
      cases stack with
      | nil => rfl
      | cons node stack =>
          have nodeFits := fits node (by simp)
          have unfolded : (node :: stack).flatMap tree.subtree =
              node :: (tree.children node ++ stack).flatMap tree.subtree := by
            rw [List.flatMap_cons, nodeFits.subtree_unfold, List.flatMap_append, List.cons_append]
          rw [unfolded] at enough ⊢
          rw [preorderStack]
          congr 1
          apply induction
          · intro next member
            rcases List.mem_append.1 member with listed | waiting
            · exact nodeFits.below next listed
            · exact fits next (List.mem_cons_of_mem _ waiting)
          · simp only [List.length_cons] at enough
            omega

theorem preorder_stack_subtrees (consistent : tree.Consistent) (acyclic : tree.Acyclic)
    (bound : Nat) (stack : List NodeId) (known : ∀ node ∈ stack, tree.contains node = true)
    (enough : (stack.flatMap tree.subtree).length ≤ bound) :
    tree.preorderStack bound stack = stack.flatMap tree.subtree :=
  preorder_stack_of_fits bound stack
    (fun node member => fits_within_size consistent acyclic (known node member)) enough

theorem preorder_eq_subtree (consistent : tree.Consistent) (acyclic : tree.Acyclic)
    {root : NodeId} (rooted : tree.root = some root) : tree.preorder = tree.subtree root := by
  have known := consistent.root_known root rooted
  have short := subtree_length_le consistent acyclic known
  rw [preorder, rooted, preorder_stack_subtrees consistent acyclic]
  · simp
  · simpa using known
  · simpa using short

theorem mem_preorder_iff (consistent : tree.Consistent) (acyclic : tree.Acyclic) {root node : NodeId}
    (rooted : tree.root = some root) :
    node ∈ tree.preorder ↔ ∃ above, tree.Descent root above node := by
  rw [preorder_eq_subtree consistent acyclic rooted,
    mem_subtree_iff consistent acyclic (consistent.root_known root rooted)]
  constructor
  · exact descent_of_reaches
  · rintro ⟨above, descent⟩
    exact descent.reaches

theorem preorder_of_rootless (rootless : tree.root = none) : tree.preorder = [] := by
  rw [preorder, rootless]
  cases tree.size <;> rfl

theorem preorder_nodup (consistent : tree.Consistent) (acyclic : tree.Acyclic) :
    tree.preorder.Nodup := by
  cases rooted : tree.root with
  | none => simp [preorder_of_rootless rooted]
  | some root =>
      rw [preorder_eq_subtree consistent acyclic rooted]
      exact subtree_within_nodup consistent acyclic tree.size root

end Tree

end SyntaxGraph
