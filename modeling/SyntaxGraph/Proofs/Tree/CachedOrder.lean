import SyntaxGraph.Tree.Cached
import SyntaxGraph.Proofs.Tree.Postorder
import SyntaxGraph.Proofs.Tree.Refusals

/-!
Why a kept order is never out of date. An edit either drops the order or leaves the whole tree as it
was, so an order that is kept is still the one that would be worked out anew. Whatever edits come
between the questions, every answer is hence the order of the tree as it is.
-/

set_option autoImplicit false

namespace SyntaxGraph

namespace CachedEdit

variable {Result Next : Type}

/-- An edit does to the tree what another one does to a tree alone. Where it keeps the order, the tree
has not changed. -/
def Follows (cachedEdit : CachedEdit Result) (edit : TreeEdit Result) : Prop :=
  ∀ cached : CachedTree, ∃ order,
    cachedEdit.run.run cached =
      ((edit.run.run cached.tree).1, ⟨(edit.run.run cached.tree).2, order⟩) ∧
    (order = none ∨ order = cached.order ∧ (edit.run.run cached.tree).2 = cached.tree)

theorem run_on_tree (edit : TreeEdit Result) (cached : CachedTree) :
    (onTree edit).run.run cached =
      ((edit.run.run cached.tree).1, ⟨(edit.run.run cached.tree).2, cached.order⟩) := rfl

theorem follows_pure (result : Result) : Follows (pure result) (pure result) :=
  fun cached => ⟨cached.order, rfl, Or.inr ⟨rfl, rfl⟩⟩

theorem Follows.bind {first : CachedEdit Result} {treeFirst : TreeEdit Result}
    {next : Result → CachedEdit Next} {treeNext : Result → TreeEdit Next}
    (follows : Follows first treeFirst) (continues : ∀ result, Follows (next result) (treeNext result)) :
    Follows (first >>= next) (treeFirst >>= treeNext) := by
  intro cached
  obtain ⟨order, ran, kept⟩ := follows cached
  rw [run_bind, run_bind, ran]
  cases treeRan : treeFirst.run.run cached.tree with
  | mk outcome tree =>
      rw [treeRan] at kept
      cases outcome with
      | error error => exact ⟨order, rfl, kept⟩
      | ok result =>
          obtain ⟨last, lastRan, lastKept⟩ := continues result ⟨tree, order⟩
          refine ⟨last, lastRan, ?_⟩
          rcases lastKept with dropped | ⟨same, unchanged⟩
          · exact Or.inl dropped
          · -- Kept twice is kept since the start.
            rcases kept with dropped | ⟨sameBefore, unchangedBefore⟩
            · exact Or.inl (same.trans dropped)
            · exact Or.inr ⟨same.trans sameBefore, unchanged.trans unchangedBefore⟩

theorem follows_check {check : TreeEdit Unit} {passes : Tree → Prop}
    (checks : TreeEdit.Checks check passes) : Follows (onTree check) check := by
  intro cached
  refine ⟨cached.order, rfl, Or.inr ⟨rfl, ?_⟩⟩
  rcases checks cached.tree with ⟨error, refused⟩ | ⟨_, passed⟩
  · rw [refused]
  · rw [passed]

theorem follows_dropping {edit : TreeEdit Unit}
    (refusals : ∀ tree error after, edit.run.run tree = (.error error, after) → after = tree) :
    Follows (onTree edit >>= fun _ => modify CachedTree.dropOrder) edit := by
  intro cached
  cases ran : edit.run.run cached.tree with
  | mk outcome tree =>
      rw [run_bind, run_on_tree, ran]
      cases outcome with
      | error error => exact ⟨cached.order, rfl, Or.inr ⟨rfl, refusals _ _ _ ran⟩⟩
      | ok _ => exact ⟨none, rfl, Or.inl rfl⟩

-- The edits

theorem attach_child_follows (parent child : NodeId) :
    Follows (attachChild parent child) (TreeEdit.attachChild parent child) := by
  apply follows_dropping
  exact fun _ _ _ ran => (TreeEdit.attach_child_accepts parent child).after_refusal ran

theorem set_root_follows (id : NodeId) : Follows (setRoot id) (TreeEdit.setRoot id) := by
  apply follows_dropping
  exact fun _ _ _ ran => (TreeEdit.set_root_accepts id).after_refusal ran

theorem add_node_follows (parent : Option NodeId) (rule text : String) (span : Span) :
    Follows (addNode parent rule text span) (TreeEdit.addNode parent rule text span) := by
  cases parent with
  | none =>
      intro cached
      refine ⟨none, ?_, Or.inl rfl⟩
      obtain ⟨⟨nodes, root⟩, order⟩ := cached
      cases root <;> rfl
  | some parent =>
      apply Follows.bind (follows_check (TreeEdit.require_node_checks parent))
      intro _ cached
      exact ⟨none, rfl, Or.inl rfl⟩

theorem push_child_follows (parent : NodeId) (rule text : String) (span : Span) :
    Follows (pushChild parent rule text span) (TreeEdit.pushChild parent rule text span) := by
  apply Follows.bind (add_node_follows (some parent) rule text span)
  intro id
  apply Follows.bind (attach_child_follows parent id)
  exact fun _ => follows_pure id

theorem replace_child_follows (parent : NodeId) (index : Nat) (replacement : NodeId) :
    Follows (replaceChild parent index replacement)
      (TreeEdit.replaceChild parent index replacement) := by
  intro cached
  rw [replaceChild, run_bind, run_on_tree]
  rcases TreeEdit.replace_child_cases cached.tree parent index replacement with
    ⟨error, refused⟩ | ⟨old, _, _, ⟨same, ran⟩ | ⟨different, _, ran⟩⟩
  · rw [refused]
    exact ⟨cached.order, rfl, Or.inr ⟨rfl, rfl⟩⟩
  · rw [ran]
    dsimp only
    rw [if_pos same]
    exact ⟨cached.order, rfl, Or.inr ⟨rfl, rfl⟩⟩
  · rw [ran]
    dsimp only
    rw [if_neg different]
    exact ⟨none, rfl, Or.inl rfl⟩

theorem deep_copy_follows (id : NodeId) : Follows (deepCopy id) (TreeEdit.deepCopy id) := by
  apply Follows.bind (follows_check (TreeEdit.require_node_checks id))
  intro _ cached
  rw [run_bind, run_bind, TreeEdit.run_get]
  have asked : (get : CachedEdit CachedTree).run.run cached = (.ok cached, cached) := rfl
  rw [asked]
  dsimp only
  cases cached.tree.node? id with
  | none => exact ⟨cached.order, rfl, Or.inr ⟨rfl, rfl⟩⟩
  | some node => exact ⟨none, rfl, Or.inl rfl⟩

end CachedEdit

def EditCall.leavesCached (cached : CachedTree) : EditCall → CachedTree
  | .addNode parent rule text span => ((CachedEdit.addNode parent rule text span).run.run cached).2
  | .attachChild parent child => ((CachedEdit.attachChild parent child).run.run cached).2
  | .pushChild parent rule text span =>
      ((CachedEdit.pushChild parent rule text span).run.run cached).2
  | .replaceChild parent index replacement =>
      ((CachedEdit.replaceChild parent index replacement).run.run cached).2
  | .deepCopy id => ((CachedEdit.deepCopy id).run.run cached).2
  | .setRoot id => ((CachedEdit.setRoot id).run.run cached).2

theorem CachedEdit.Follows.leaves {Result : Type} {cachedEdit : CachedEdit Result}
    {edit : TreeEdit Result} (follows : CachedEdit.Follows cachedEdit edit) (cached : CachedTree) :
    ∃ order, (cachedEdit.run.run cached).2 = ⟨(edit.run.run cached.tree).2, order⟩ ∧
      (order = none ∨ order = cached.order ∧ (edit.run.run cached.tree).2 = cached.tree) := by
  obtain ⟨order, ran, kept⟩ := follows cached
  exact ⟨order, congrArg Prod.snd ran, kept⟩

theorem EditCall.leaves_cached_eq (call : EditCall) (cached : CachedTree) :
    ∃ order, call.leavesCached cached = ⟨call.leaves cached.tree, order⟩ ∧
      (order = none ∨ order = cached.order ∧ call.leaves cached.tree = cached.tree) := by
  cases call with
  | addNode parent rule text span =>
      exact (CachedEdit.add_node_follows parent rule text span).leaves cached
  | attachChild parent child => exact (CachedEdit.attach_child_follows parent child).leaves cached
  | pushChild parent rule text span =>
      exact (CachedEdit.push_child_follows parent rule text span).leaves cached
  | replaceChild parent index replacement =>
      exact (CachedEdit.replace_child_follows parent index replacement).leaves cached
  | deepCopy id => exact (CachedEdit.deep_copy_follows id).leaves cached
  | setRoot id => exact (CachedEdit.set_root_follows id).leaves cached

namespace CachedTree

/-- What comes about by edits, refused ones among them, and by questions for the order in between. -/
inductive Reachable : CachedTree → Prop
  | empty : Reachable (.ofTree .empty)
  | withRoot (rule text : String) (span : Span) : Reachable (.ofTree (.withRoot rule text span))
  | edited {cached : CachedTree} (reachable : Reachable cached) (call : EditCall) :
      Reachable (call.leavesCached cached)
  | asked {cached : CachedTree} (reachable : Reachable cached) :
      Reachable cached.topologicalOrder.2

/-- An order that is kept is the one that would be worked out anew. -/
def UpToDate (cached : CachedTree) : Prop :=
  ∀ order, cached.order = some order → order = cached.tree.topologicalOrder

variable {cached : CachedTree}

theorem UpToDate.edited (upToDate : cached.UpToDate) (call : EditCall) :
    (call.leavesCached cached).UpToDate := by
  obtain ⟨order, left, kept⟩ := call.leaves_cached_eq cached
  intro found same
  rw [left] at same ⊢
  rcases kept with dropped | ⟨sameOrder, unchanged⟩
  · rw [dropped] at same
    cases same
  · rw [unchanged]
    exact upToDate found (sameOrder.symm.trans same)

theorem UpToDate.answer (upToDate : cached.UpToDate) :
    cached.topologicalOrder =
      (cached.tree.topologicalOrder, ⟨cached.tree, some cached.tree.topologicalOrder⟩) := by
  obtain ⟨tree, order⟩ := cached
  cases order with
  | none => rfl
  | some order => rw [topologicalOrder, upToDate order rfl]

theorem Reachable.up_to_date (reachable : cached.Reachable) : cached.UpToDate := by
  induction reachable with
  | empty => exact nofun
  | withRoot rule text span => exact nofun
  | edited _ call induction => exact induction.edited call
  | asked _ induction =>
      rw [induction.answer]
      intro order same
      exact (Option.some.inj same).symm

theorem Reachable.tree_reachable (reachable : cached.Reachable) : cached.tree.Reachable := by
  induction reachable with
  | empty => exact Tree.Reachable.empty
  | withRoot rule text span => exact Tree.Reachable.withRoot rule text span
  | @edited cached _ call induction =>
      obtain ⟨order, left, _⟩ := call.leaves_cached_eq cached
      rw [left]
      exact induction.edited call
  | asked reachable induction =>
      rw [reachable.up_to_date.answer]
      exact induction

theorem Reachable.after_calls (reachable : cached.Reachable) (calls : List EditCall) :
    (calls.foldl EditCall.leavesCached cached).Reachable := by
  induction calls generalizing cached with
  | nil => exact reachable
  | cons call rest induction => exact induction (reachable.edited call)

end CachedTree

namespace Tree

variable {tree : Tree}

theorem head_of_preorder (consistent : tree.Consistent) (acyclic : tree.Acyclic) :
    tree.preorder.head? = tree.root := by
  cases rooted : tree.root with
  | none => rw [preorder_of_rootless rooted, List.head?_nil]
  | some root =>
      rw [preorder_eq_subtree consistent acyclic rooted,
        subtree_unfold consistent acyclic (consistent.root_known root rooted), List.head?_cons]

theorem preorder_eq (consistent : tree.Consistent) (acyclic : tree.Acyclic) :
    tree.preorder = tree.root.toList.flatMap tree.subtree := by
  cases rooted : tree.root with
  | none => exact preorder_of_rootless rooted
  | some root => simp [preorder_eq_subtree consistent acyclic rooted]

theorem topological_order_eq_upwards (consistent : tree.Consistent) (acyclic : tree.Acyclic) :
    tree.topologicalOrder = tree.root.toList.flatMap tree.subtreeUpwards := by
  cases rooted : tree.root with
  | none => exact topological_order_of_rootless rooted
  | some root => simp [topological_order_eq consistent acyclic rooted]

end Tree

/-- In a tree that comes about by edits and questions in any order, as long as its child links are
acyclic: a question for the children-first order is answered from the root and the children as they
are, by the recursion that lists a node behind everything below it, and so is every evaluation from
the leaves. The pre-order is the recursion that lists the node first. Both hold the nodes that can be
reached from the root, each once, the root last in one and first in the other; the leaves are those of
the pre-order that have no children. -/
theorem CachedTree.Reachable.orders_agree {cached : CachedTree} (reachable : cached.Reachable)
    (acyclic : cached.tree.Acyclic) :
    let tree := cached.tree
    let answer := cached.topologicalOrder.1
    answer = tree.root.toList.flatMap tree.subtreeUpwards ∧
      tree.preorder = tree.root.toList.flatMap tree.subtree ∧
      (∀ node, tree.contains node = true →
        tree.subtreeUpwards node = (tree.children node).flatMap tree.subtreeUpwards ++ [node] ∧
          tree.subtree node = node :: (tree.children node).flatMap tree.subtree) ∧
      (∀ node, node ∈ tree.preorder ↔
        ∃ root ∈ tree.root, Relation.ReflTransGen tree.IsChild root node) ∧
      answer.Perm tree.preorder ∧ answer.Nodup ∧ tree.preorder.Nodup ∧
      answer.getLast? = tree.root ∧ tree.preorder.head? = tree.root ∧
      tree.leaves = (tree.preorder.filter fun node => tree.children node = []) ∧
      ∀ (State Output Summary : Type) (transform : Transform State Output Summary) (state : State),
        (cached.processBottomUp transform state).1 = tree.processBottomUp transform state := by
  intro tree answer
  have consistent : tree.Consistent := reachable.tree_reachable.wellFormed.toConsistent
  have asked := reachable.up_to_date.answer
  have answered : answer = tree.topologicalOrder := congrArg Prod.fst asked
  have sameNodes := Tree.topological_order_perm consistent acyclic
  have once := Tree.preorder_nodup consistent acyclic
  rw [answered]
  refine ⟨Tree.topological_order_eq_upwards consistent acyclic, Tree.preorder_eq consistent acyclic,
    ?_, ?_, sameNodes, sameNodes.nodup_iff.2 once, once,
    Tree.last_of_topological_order consistent acyclic, Tree.head_of_preorder consistent acyclic, ?_, ?_⟩
  · intro node known
    exact ⟨Tree.subtree_upwards_unfold consistent acyclic known,
      Tree.subtree_unfold consistent acyclic known⟩
  · intro node
    cases rooted : tree.root with
    | none => simp [Tree.preorder_of_rootless rooted]
    | some root =>
        rw [Tree.preorder_eq_subtree consistent acyclic rooted,
          Tree.mem_subtree_iff consistent acyclic (consistent.root_known root rooted)]
        simp
  · apply List.filter_congr
    intro node _
    cases tree.children node <;> rfl
  · intro State Output Summary transform state
    rw [CachedTree.processBottomUp, asked]
    rfl

namespace CachedTree

def asked : CachedTree :=
  let span : Span := ⟨0, 0, 1, 0⟩
  ([EditCall.addNode none "module" "m" span, .pushChild 0 "def" "f" span,
    .pushChild 1 "name" "x" span].foldl EditCall.leavesCached (.ofTree .empty)).topologicalOrder.2

/-- A copy takes the place of the definition, gets another name and becomes the root. -/
def rearranged : CachedTree :=
  [EditCall.deepCopy 1, .replaceChild 0 0 3, .pushChild 3 "name" "y" ⟨0, 0, 1, 0⟩, .setRoot 3].foldl
    EditCall.leavesCached asked

theorem kept_order_is_dropped :
    asked.order = some [2, 1, 0] ∧ rearranged.Reachable ∧ rearranged.tree.Acyclic ∧
      rearranged.topologicalOrder.1 = [4, 5, 3] ∧ rearranged.tree.preorder = [3, 4, 5] := by
  have built : asked.Reachable := (Reachable.empty.after_calls _).asked
  have reachable : rearranged.Reachable := built.after_calls _
  have acyclic : rearranged.tree.Acyclic := Tree.acyclic_of_downward (by decide +kernel)
  obtain ⟨answered, walked, _⟩ := reachable.orders_agree acyclic
  refine ⟨by decide +kernel, reachable, acyclic, ?_, ?_⟩
  · rw [answered]
    decide +kernel
  · rw [walked]
    decide +kernel

end CachedTree

end SyntaxGraph
