import SyntaxGraph.Proofs.Tree.Forest
import SyntaxGraph.Proofs.Tree.WorkQueue

/-!
What edits write to the arena, one write after the other, and why no node comes to record itself as its
parent unless it is its own child. In a tree without loops the parent that the root records is therefore
never the root itself; the root is apart from it unless it leads to it by child links.
-/

set_option autoImplicit false

namespace SyntaxGraph

namespace Tree

inductive Writes : Tree → Tree → Prop
  | pushed {tree : Tree} {parent : Option NodeId}
      (parentKnown : ∀ lister ∈ parent, tree.contains lister = true) (rule text : String)
      (span : Span) : Writes tree (tree.push parent rule text span)
  | listed {tree : Tree} {parent : NodeId} (known : tree.contains parent = true) (child : NodeId) :
      Writes tree (tree.setChildren parent (tree.children parent ++ [child]))
  | attached {tree : Tree} {parent child : NodeId} (parentKnown : tree.contains parent = true)
      (childKnown : tree.contains child = true) : Writes tree (tree.attached parent child)
  | replaced {tree : Tree} {parent old replacement : NodeId} {index : Nat}
      (there : (tree.children parent)[index]? = some old) (oldKnown : tree.contains old = true)
      (known : tree.contains replacement = true) :
      Writes tree (tree.replaced parent index old replacement)
  | rooted {tree : Tree} (id : NodeId) : Writes tree { tree with root := some id }

def WritesMany : Tree → Tree → Prop := Relation.ReflTransGen Writes

-- Edits, write by write

theorem copy_children_writes {copied : NodeId} (children : List NodeId) (tree : Tree)
    (known : tree.contains copied = true) : tree.WritesMany (copyChildren copied children tree).2 := by
  induction children generalizing tree with
  | nil => exact Relation.ReflTransGen.refl
  | cons child rest induction =>
      unfold copyChildren
      cases tree.node? child with
      | none => exact induction tree known
      | some node =>
          have pushed : Writes tree (tree.push (some copied) node.rule node.text node.span) :=
            Writes.pushed (recorded_known known) _ _ _
          have pushedKnown : (tree.push (some copied) node.rule node.text node.span).contains
              copied = true := by
            refine contains_mono ?_ known
            rw [size_push]
            exact Nat.le_succ _
          refine Relation.ReflTransGen.head pushed
            (Relation.ReflTransGen.head (Writes.listed pushedKnown tree.size) (induction _ ?_))
          exact contains_mono (Nat.le_of_eq (size_set_children _ _).symm) pushedKnown

end Tree

namespace TreeEdit

variable {tree : Tree}

theorem add_node_writes (parent : Option NodeId) (rule text : String) (span : Span) :
    tree.WritesMany ((addNode parent rule text span).run.run tree).2 := by
  refine add_node_keeps tree.WritesMany Relation.ReflTransGen.refl parent rule text span
    (fun _ known => ?_) ?_
  · exact Relation.ReflTransGen.single (Tree.Writes.pushed known rule text span)
  · have pushed : tree.Writes (tree.push none rule text span) := Tree.Writes.pushed (by simp) _ _ _
    exact (Relation.ReflTransGen.single pushed).tail (Tree.Writes.rooted _)

theorem push_child_writes (wellFormed : tree.WellFormed) (parent : NodeId) (rule text : String)
    (span : Span) : tree.WritesMany ((pushChild parent rule text span).run.run tree).2 := by
  by_cases known : tree.contains parent = true
  · rw [run_push_child known rule text span wellFormed]
    refine (Relation.ReflTransGen.single (Tree.Writes.listed known tree.size)).tail
      (Tree.Writes.pushed (Tree.recorded_known ?_) _ _ _)
    exact Tree.contains_mono (Nat.le_of_eq (Tree.size_set_children _ _).symm) known
  · rw [push_child_refuses known]
    exact Relation.ReflTransGen.refl

theorem deep_copy_writes (wellFormed : tree.WellFormed) (id : NodeId) :
    tree.WritesMany ((deepCopy id).run.run tree).2 := by
  refine Tree.deep_copy_keeps tree.WritesMany (fun _ children later _ known written => ?_) wellFormed
    Relation.ReflTransGen.refl (fun rule text span => ?_) id
  · exact written.trans (Tree.copy_children_writes children later known)
  · exact Relation.ReflTransGen.single (Tree.Writes.pushed (by simp) rule text span)

end TreeEdit

theorem EditCall.leaves_by_writes {tree : Tree} (wellFormed : tree.WellFormed) (call : EditCall) :
    tree.WritesMany (call.leaves tree) := by
  cases call with
  | addNode parent rule text span => exact TreeEdit.add_node_writes parent rule text span
  | attachChild parent child =>
      rcases TreeEdit.attach_child_cases tree parent child with
        ⟨error, refused⟩ | ⟨parentKnown, childKnown, _, ran⟩
      · rw [leaves, refused]
        exact Relation.ReflTransGen.refl
      · rw [leaves, ran]
        exact Relation.ReflTransGen.single (Tree.Writes.attached parentKnown childKnown)
  | pushChild parent rule text span =>
      exact TreeEdit.push_child_writes wellFormed parent rule text span
  | replaceChild parent index replacement =>
      rcases TreeEdit.replace_child_cases tree parent index replacement with
        ⟨error, refused⟩ | ⟨old, there, known, ⟨_, ran⟩ | ⟨_, _, ran⟩⟩
      · rw [leaves, refused]
        exact Relation.ReflTransGen.refl
      · rw [leaves, ran]
        exact Relation.ReflTransGen.refl
      · rw [leaves, ran]
        exact Relation.ReflTransGen.single (Tree.Writes.replaced there
          (wellFormed.child_known (List.mem_of_getElem? there)) known)
  | deepCopy id => exact TreeEdit.deep_copy_writes wellFormed id
  | setRoot id =>
      rcases (TreeEdit.require_node_checks id).cases
        (modify fun tree => { tree with root := some id }) tree with
        ⟨error, refused⟩ | ⟨_, ran⟩
      · have same : ((TreeEdit.setRoot id).run.run tree).2 = tree := congrArg Prod.snd refused
        rw [leaves, same]
        exact Relation.ReflTransGen.refl
      · have rooted : ((TreeEdit.setRoot id).run.run tree).2 = { tree with root := some id } :=
          congrArg Prod.snd ran
        rw [leaves, rooted]
        exact Relation.ReflTransGen.single (Tree.Writes.rooted id)

namespace Tree

variable {tree : Tree}

-- Nodes that record themselves

/-- A node that records itself as its parent is its own child. -/
def ListsOwn (tree : Tree) : Prop :=
  ∀ node, tree.parent? node = some node → node ∈ tree.children node

theorem ListsOwn.grown {after : Tree} (own : tree.ListsOwn)
    (kept : ∀ node, after.parent? node = some node → tree.parent? node = some node)
    (larger : ∀ node, tree.children node ⊆ after.children node) : after.ListsOwn :=
  fun node recorded => larger node (own node (kept node recorded))

theorem ListsOwn.push (own : tree.ListsOwn) {parent : Option NodeId}
    (parentKnown : ∀ lister ∈ parent, tree.contains lister = true) (rule text : String)
    (span : Span) : (tree.push parent rule text span).ListsOwn := by
  refine own.grown (fun node recorded => ?_) (fun node => ?_)
  · rw [parent_push] at recorded
    by_cases fresh : node = tree.size
    · rw [if_pos fresh] at recorded
      exact absurd fresh (Nat.ne_of_lt (of_decide_eq_true (parentKnown node recorded)))
    · rwa [if_neg fresh] at recorded
  · rw [children_push]
    exact List.Subset.refl _

theorem ListsOwn.appendChild (own : tree.ListsOwn) {parent : NodeId}
    (known : tree.contains parent = true) (child : NodeId) :
    (tree.setChildren parent (tree.children parent ++ [child])).ListsOwn := by
  refine own.grown (fun node recorded => ?_) (fun node => ?_)
  · rwa [parent_set_children] at recorded
  · rw [children_set_children known]
    by_cases same : node = parent
    · rw [if_pos same, same]
      exact List.subset_append_left _ _
    · rw [if_neg same]
      exact List.Subset.refl _

/-- The only new record is that of the child, which is listed. -/
theorem ListsOwn.attached (own : tree.ListsOwn) {parent child : NodeId}
    (parentKnown : tree.contains parent = true) (childKnown : tree.contains child = true) :
    (tree.attached parent child).ListsOwn := by
  have adoptedKnown : (tree.setParent child (some parent)).contains parent = true :=
    contains_mono (Nat.le_of_eq (size_set_parent _ _).symm) parentKnown
  intro node recorded
  rw [Tree.attached, parent_set_children, parent_set_parent childKnown] at recorded
  rw [Tree.attached, children_set_children adoptedKnown, children_set_parent, children_set_parent]
  by_cases same : node = child
  · rw [if_pos same] at recorded
    have lister : node = parent := (Option.some.inj recorded).symm
    rw [if_pos lister, same]
    exact List.mem_append_right _ (List.mem_singleton_self child)
  · rw [if_neg same] at recorded
    have listed := own node recorded
    by_cases lister : node = parent
    · rw [if_pos lister, ← lister]
      exact List.mem_append_left _ listed
    · rw [if_neg lister]
      exact listed

theorem mem_set_of_other {items : List NodeId} {index : Nat} {old new item : NodeId}
    (there : items[index]? = some old) (member : item ∈ items) (other : item ≠ old) :
    item ∈ items.set index new := by
  obtain ⟨position, found⟩ := List.getElem?_of_mem member
  have apart : index ≠ position := by
    intro same
    rw [same, found] at there
    exact other (Option.some.inj there)
  exact List.mem_of_getElem? ((List.getElem?_set_ne apart).trans found)

/-- The child that leaves its list records no parent any more. -/
theorem ListsOwn.replaced (own : tree.ListsOwn) {parent old replacement : NodeId} {index : Nat}
    (there : (tree.children parent)[index]? = some old) (oldKnown : tree.contains old = true)
    (known : tree.contains replacement = true) :
    (tree.replaced parent index old replacement).ListsOwn := by
  have listedOld : old ∈ tree.children parent := List.mem_of_getElem? there
  have relistedSize := tree.size_set_children parent ((tree.children parent).set index replacement)
  have oldThere : (tree.setChildren parent
      ((tree.children parent).set index replacement)).contains old = true :=
    contains_mono (Nat.le_of_eq relistedSize.symm) oldKnown
  have newKnown : ((tree.setChildren parent
      ((tree.children parent).set index replacement)).setParent old none).contains replacement =
        true := by
    refine contains_mono (Nat.le_of_eq ?_) known
    rw [size_set_parent, relistedSize]
  intro node recorded
  rw [Tree.replaced, parent_set_parent newKnown, parent_set_parent oldThere, parent_set_children]
    at recorded
  rw [Tree.replaced, children_set_parent, children_set_parent,
    children_set_children (known_of_listing listedOld)]
  by_cases new : node = replacement
  · rw [if_pos new] at recorded
    have lister : node = parent := (Option.some.inj recorded).symm
    rw [if_pos lister, new]
    exact List.mem_set (List.getElem?_eq_some_iff.1 there).1 _
  · rw [if_neg new] at recorded
    by_cases left : node = old
    · rw [if_pos left] at recorded
      cases recorded
    · rw [if_neg left] at recorded
      have listed := own node recorded
      by_cases lister : node = parent
      · rw [if_pos lister]
        exact mem_set_of_other there (lister ▸ listed) left
      · rw [if_neg lister]
        exact listed

theorem Writes.lists_own {after : Tree} (writes : tree.Writes after) (own : tree.ListsOwn) :
    after.ListsOwn := by
  cases writes with
  | pushed parentKnown rule text span => exact own.push parentKnown rule text span
  | listed known child => exact own.appendChild known child
  | attached parentKnown childKnown => exact own.attached parentKnown childKnown
  | replaced there oldKnown known => exact own.replaced there oldKnown known
  | rooted id => exact own

theorem WritesMany.lists_own {after : Tree} (writes : tree.WritesMany after) (own : tree.ListsOwn) :
    after.ListsOwn := by
  induction writes with
  | refl => exact own
  | tail _ write induction => exact write.lists_own induction

theorem Reachable.lists_own (reachable : tree.Reachable) : tree.ListsOwn := by
  have empty : Tree.empty.ListsOwn := nofun
  induction reachable with
  | empty => exact empty
  | withRoot rule text span =>
      have pushed := ListsOwn.push empty (by simp : ∀ lister ∈ (none : Option NodeId), _) rule text span
      exact (Writes.rooted 0).lists_own pushed
  | edited before call induction =>
      exact (call.leaves_by_writes before.wellFormed).lists_own induction

/-- Where edits made no loop, a root is apart unless it records one of the nodes that it leads to by
child links, one or more. -/
theorem Reachable.root_apart_iff (reachable : tree.Reachable) (acyclic : tree.Acyclic) :
    tree.RootApart ↔ ∀ root parent, tree.root = some root → tree.parent? root = some parent →
      ¬Relation.TransGen tree.IsChild root parent := by
  constructor
  · intro apart root parent rooted recorded below
    exact apart parent ⟨root, rooted, recorded, below.to_reflTransGen⟩
  · rintro outside parent ⟨root, rooted, recorded, reaches⟩
    rcases Relation.reflTransGen_iff_eq_or_transGen.1 reaches with same | below
    · rw [same] at recorded
      exact acyclic root (Relation.TransGen.single (reachable.lists_own root recorded))
    · exact outside root parent rooted recorded below

end Tree

end SyntaxGraph
