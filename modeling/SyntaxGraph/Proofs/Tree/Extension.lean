import SyntaxGraph.Proofs.Tree.History

/-!
Trees that grow by new nodes which are listed under an old one. Nodes are added behind those that are
there, so what a run of such edits adds is put together from what its parts add.
-/

set_option autoImplicit false

namespace SyntaxGraph

namespace Tree

/-- Nodes were added behind those of the tree, and some of them listed last under one of these. -/
structure Extends (tree : Tree) (parent : NodeId) (tops : List NodeId) (added : List Node)
    (after : Tree) : Prop where
  wellFormed : after.WellFormed
  root : after.root = tree.root
  held : after.nodes.toList =
    (tree.setChildren parent (tree.children parent ++ tops)).nodes.toList ++ added

variable {tree middle after : Tree} {parent : NodeId} {tops more : List NodeId}
  {added later : List Node}

theorem WellFormed.extends_nothing (wellFormed : tree.WellFormed) (parent : NodeId) :
    tree.Extends parent [] [] tree := by
  refine ⟨wellFormed, rfl, ?_⟩
  rw [List.append_nil, List.append_nil, set_same_children]

theorem Extends.size (extended : tree.Extends parent tops added after) :
    after.size = tree.size + added.length := by
  have length := congrArg List.length extended.held
  rw [List.length_append] at length
  exact length.trans (congrArg (· + added.length) (size_set_children _ _))

theorem Extends.children (extended : tree.Extends parent tops added after)
    (known : tree.contains parent = true) :
    after.children parent = tree.children parent ++ tops := by
  have inside : parent < (tree.setChildren parent (tree.children parent ++ tops)).nodes.toList.length :=
    Nat.lt_of_lt_of_eq (of_decide_eq_true known) (size_set_children _ _).symm
  have same : after.node? parent =
      (tree.setChildren parent (tree.children parent ++ tops)).node? parent := by
    rw [node?, node?, ← Array.getElem?_toList, extended.held, List.getElem?_append_left inside,
      Array.getElem?_toList]
  have listed := children_set_children known parent (tree.children parent ++ tops)
  rw [if_pos rfl] at listed
  rw [← listed, Tree.children, Tree.children, same]

/-- What is added later is listed behind what was added before. -/
theorem Extends.append (earlier : tree.Extends parent tops added middle)
    (known : tree.contains parent = true) (next : middle.Extends parent more later after) :
    tree.Extends parent (tops ++ more) (added ++ later) after := by
  have listed := earlier.children known
  have inside : parent < (tree.nodes.toList.modify parent fun node =>
      { node with children := tree.children parent ++ tops }).length := by
    rw [List.length_modify]
    exact of_decide_eq_true known
  refine ⟨next.wellFormed, next.root.trans earlier.root, ?_⟩
  rw [next.held, listed, setChildren, Array.toList_modify, earlier.held, setChildren,
    Array.toList_modify, setChildren, Array.toList_modify, modify_before _ _ inside,
    List.modify_modify_eq, List.append_assoc, List.append_assoc]
  rfl

def pushedUnder (tree : Tree) (parent : NodeId) (rule text : String) (span : Span) : Tree :=
  (tree.setChildren parent (tree.children parent ++ [tree.size])).push (some parent) rule text span

theorem size_pushed_under (parent : NodeId) (rule text : String) (span : Span) :
    (tree.pushedUnder parent rule text span).size = tree.size + 1 := by
  rw [pushedUnder, size_push, size_set_children]

/-- What is listed under the new node fills its list, and is otherwise added behind it. -/
theorem Extends.under {rule text : String} {span : Span}
    (extended : (tree.pushedUnder parent rule text span).Extends tree.size tops added after) :
    tree.Extends parent [tree.size] (⟨tree.size, rule, text, span, some parent, tops⟩ :: added)
      after := by
  let listed := tree.setChildren parent (tree.children parent ++ [tree.size])
  have size : listed.size = tree.size := size_set_children _ _
  have childless : (tree.pushedUnder parent rule text span).children tree.size = [] := by
    rw [← size, Tree.children, pushedUnder, node_push, if_pos rfl]
    rfl
  have filled : ((tree.pushedUnder parent rule text span).setChildren tree.size tops).nodes.toList =
      listed.nodes.toList ++ [⟨tree.size, rule, text, span, some parent, tops⟩] := by
    rw [← size]
    exact set_children_behind _ (List.append_nil _).symm
  refine ⟨extended.wellFormed, extended.root, ?_⟩
  rw [extended.held, childless, List.nil_append, filled]
  exact List.append_assoc _ _ _

end Tree

theorem TreeEdit.run_push_under {tree : Tree} {parent : NodeId} (known : tree.contains parent = true)
    (rule text : String) (span : Span) (wellFormed : tree.WellFormed) :
    (pushChild parent rule text span).run.run tree =
        (.ok tree.size, tree.pushedUnder parent rule text span) ∧
      (tree.pushedUnder parent rule text span).WellFormed ∧
      (tree.pushedUnder parent rule text span).contains tree.size = true := by
  have ran := run_push_child known rule text span wellFormed
  have kept := push_child_well_formed wellFormed parent rule text span
  rw [ran] at kept
  refine ⟨ran, kept, ?_⟩
  rw [← tree.size_set_children parent (tree.children parent ++ [tree.size])]
  exact Tree.contains_pushed _ _ _ _ _

end SyntaxGraph
