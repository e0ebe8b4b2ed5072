import Mathlib.Data.List.Flatten
import Mathlib.Data.List.Perm.Basic
import SyntaxGraph.Proofs.Tree.Walk
import SyntaxGraph.Proofs.Tree.Writes

/-!
How far copying reaches. Every pair that is worked off puts pairs for the children of an old node
on the list, and the lists of old nodes stay as they are while their copies are filled, so the number
of rounds is the number of nodes in the copied subtree.
-/

set_option autoImplicit false

namespace SyntaxGraph

namespace Tree

/-- What copying the children of one node does: it pairs them with new nodes, of which only the
copied parent's list knows. -/
structure CopiesChildren (before : Tree) (copied : NodeId) (children : List NodeId)
    (pairs : List (NodeId × NodeId)) (after : Tree) : Prop where
  sources : (pairs.map Prod.fst).Sublist children
  grows : before.size ≤ after.size
  fresh : ∀ pair ∈ pairs, before.size ≤ pair.2 ∧ after.contains pair.2 = true
  others_kept : ∀ other, other ≠ copied → after.children other = before.children other

theorem copy_children_copies {copied : NodeId} (children : List NodeId) (tree : Tree)
    (known : tree.contains copied = true) :
    tree.CopiesChildren copied children (copyChildren copied children tree).1
      (copyChildren copied children tree).2 := by
  induction children generalizing tree with
  | nil => exact ⟨List.Sublist.refl [], Nat.le_refl _, by simp [copyChildren], fun _ _ => rfl⟩
  | cons child rest induction =>
      unfold copyChildren
      cases tree.node? child with
      | none =>
          have later := induction tree known
          exact ⟨later.sources.cons child, later.grows, later.fresh, later.others_kept⟩
      | some node =>
          let grown := tree.push (some copied) node.rule node.text node.span
          have knownThere : grown.contains copied = true := by
            apply contains_mono _ known
            rw [size_push]
            exact Nat.le_succ _
          have sizes : (grown.setChildren copied (grown.children copied ++ [tree.size])).size =
              tree.size + 1 := by
            rw [size_set_children, size_push]
          have later := induction (grown.setChildren copied (grown.children copied ++ [tree.size]))
            (contains_mono (Nat.le_of_eq (size_set_children _ _).symm) knownThere)
          have larger := later.grows
          rw [sizes] at larger
          refine ⟨?_, Nat.le_trans (Nat.le_succ _) larger, ?_, ?_⟩
          · exact later.sources.cons_cons child
          · intro pair member
            rcases List.mem_cons.1 member with same | behind
            · rw [same]
              exact ⟨Nat.le_refl _, decide_eq_true (Nat.lt_of_lt_of_le (Nat.lt_succ_self _) larger)⟩
            · have found := later.fresh pair behind
              rw [sizes] at found
              exact ⟨Nat.le_trans (Nat.le_succ _) found.1, found.2⟩
          · intro other different
            rw [later.others_kept other different, children_set_children knownThere,
              if_neg different, children_push]

def awaiting (source : Tree) (pending : List (NodeId × NodeId)) : List NodeId :=
  pending.flatMap fun pair => source.subtree pair.1

theorem length_awaiting_le {source : Tree} {pairs : List (NodeId × NodeId)}
    {children : List NodeId} (sources : (pairs.map Prod.fst).Sublist children) :
    (source.awaiting pairs).length ≤ (children.flatMap source.subtree).length := by
  have mapped : source.awaiting pairs = (pairs.map Prod.fst).flatMap source.subtree := by
    rw [List.flatMap_map]
    rfl
  rw [mapped]
  exact (sources.flatMap source.subtree).length_le

/-- Enough rounds for the nodes that are still awaited leave nothing to do for any further one. -/
theorem copy_pending_stable {source : Tree} (consistent : source.Consistent)
    (acyclic : source.Acyclic) (bound more : Nat) (pending : List (NodeId × NodeId)) (tree : Tree)
    (kept : ∀ node, source.contains node = true → tree.children node = source.children node)
    (known : ∀ pair ∈ pending, source.contains pair.1 = true)
    (fresh : ∀ pair ∈ pending, source.size ≤ pair.2 ∧ tree.contains pair.2 = true)
    (larger : source.size ≤ tree.size)
    (enough : (source.awaiting pending).length ≤ bound) (further : bound ≤ more) :
    copyPending more pending tree = copyPending bound pending tree := by
  induction bound generalizing more pending tree with
  | zero =>
      cases pending with
      | nil => cases more <;> rfl
      | cons first pending =>
          have unfolded := subtree_unfold consistent acyclic (known first (by simp))
          simp [awaiting, unfolded] at enough
  | succ bound induction =>
      cases pending with
      | nil => cases more <;> rfl
      | cons first pending =>
          obtain ⟨node, copied⟩ := first
          have nodeKnown : source.contains node = true := known (node, copied) (by simp)
          obtain ⟨isNew, copiedKnown⟩ := fresh (node, copied) (by simp)
          obtain ⟨more, rfl⟩ : ∃ rounds, more = rounds + 1 := ⟨more - 1, by omega⟩
          have copies := copy_children_copies (tree.children node) tree copiedKnown
          rw [kept node nodeKnown] at copies
          rw [copyPending, copyPending]
          rw [kept node nodeKnown]
          apply induction
          · intro other otherKnown
            rw [copies.others_kept other, kept other otherKnown]
            intro same
            rw [same] at otherKnown
            exact absurd (of_decide_eq_true otherKnown) (Nat.not_lt.2 isNew)
          · intro pair member
            rcases List.mem_append.1 member with new | waiting
            · have listed : pair.1 ∈ source.children node :=
                copies.sources.subset (List.mem_map_of_mem (List.mem_reverse.1 new))
              exact consistent.child_known listed
            · exact known pair (List.mem_cons_of_mem _ waiting)
          · intro pair member
            rcases List.mem_append.1 member with new | waiting
            · have found := copies.fresh pair (List.mem_reverse.1 new)
              exact ⟨Nat.le_trans larger found.1, found.2⟩
            · have found := fresh pair (List.mem_cons_of_mem _ waiting)
              exact ⟨found.1, contains_mono copies.grows found.2⟩
          · exact Nat.le_trans larger copies.grows
          · have unfolded := subtree_unfold consistent acyclic nodeKnown
            have children : (source.awaiting _).length ≤ _ := length_awaiting_le copies.sources
            have sameLength : (source.awaiting
                (copyChildren copied (source.children node) tree).1.reverse).length =
                (source.awaiting (copyChildren copied (source.children node) tree).1).length :=
              ((List.reverse_perm _).flatMap_right _).length_eq
            simp only [awaiting, List.flatMap_cons, List.length_append, unfolded,
              List.length_cons] at enough
            simp only [awaiting, List.flatMap_append, List.length_append] at sameLength children ⊢
            omega
          · omega

/-- A copy takes no more rounds than the tree has nodes. -/
theorem copy_pending_root_stable {tree : Tree} (consistent : tree.Consistent)
    (acyclic : tree.Acyclic) {id : NodeId} (known : tree.contains id = true) (rule text : String)
    (span : Span) {bound : Nat} (enough : tree.size ≤ bound) :
    (tree.push none rule text span).copyPending bound [(id, tree.size)] =
      (tree.push none rule text span).copyPending tree.size [(id, tree.size)] := by
  apply copy_pending_stable consistent acyclic
  · intro node _
    exact children_push none rule text span node
  · intro pair member
    rw [List.mem_singleton.1 member]
    exact known
  · intro pair member
    rw [List.mem_singleton.1 member]
    exact ⟨Nat.le_refl _, tree.contains_pushed none rule text span⟩
  · rw [size_push]
    exact Nat.le_succ _
  · have short := subtree_length_le consistent acyclic known
    simpa [awaiting] using short
  · exact enough

end Tree

end SyntaxGraph
