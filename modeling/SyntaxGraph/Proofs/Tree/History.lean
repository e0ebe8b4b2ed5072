import SyntaxGraph.Proofs.Outcome
import SyntaxGraph.Proofs.Tree.Writes

/-!
The trees that come about by edits. Whatever is called, with whatever arguments and whether or not
it is refused, links stay consistent and nodes keep their numbers; links need not stay acyclic.
-/

set_option autoImplicit false

namespace SyntaxGraph

inductive EditCall where
  | addNode (parent : Option NodeId) (rule text : String) (span : Span)
  | attachChild (parent child : NodeId)
  | pushChild (parent : NodeId) (rule text : String) (span : Span)
  | replaceChild (parent : NodeId) (index : Nat) (replacement : NodeId)
  | deepCopy (id : NodeId)
  | setRoot (id : NodeId)

def EditCall.leaves (tree : Tree) : EditCall → Tree
  | .addNode parent rule text span => ((TreeEdit.addNode parent rule text span).run.run tree).2
  | .attachChild parent child => ((TreeEdit.attachChild parent child).run.run tree).2
  | .pushChild parent rule text span => ((TreeEdit.pushChild parent rule text span).run.run tree).2
  | .replaceChild parent index replacement =>
      ((TreeEdit.replaceChild parent index replacement).run.run tree).2
  | .deepCopy id => ((TreeEdit.deepCopy id).run.run tree).2
  | .setRoot id => ((TreeEdit.setRoot id).run.run tree).2

/-- The trees that calls can bring about, refused ones among them. -/
inductive Tree.Reachable : Tree → Prop
  | empty : Reachable Tree.empty
  | withRoot (rule text : String) (span : Span) : Reachable (Tree.withRoot rule text span)
  | edited {tree : Tree} (reachable : Reachable tree) (call : EditCall) :
      Reachable (call.leaves tree)

namespace TreeEdit

theorem run_get (tree : Tree) : (get : TreeEdit Tree).run.run tree = (.ok tree, tree) := rfl

/-- A check lets an edit go on or ends it with the tree as it was. -/
def Checks (check : TreeEdit Unit) (passes : Tree → Prop) : Prop :=
  ∀ tree, (∃ error, check.run.run tree = (.error error, tree)) ∨
    passes tree ∧ check.run.run tree = (.ok (), tree)

theorem require_node_checks (id : NodeId) :
    Checks (requireNode id) fun tree => tree.contains id = true := by
  intro tree
  have ran : (requireNode id).run.run tree =
      (if tree.contains id = true then pure () else throw (.unknownNode id) :
        TreeEdit Unit).run.run tree := rfl
  by_cases known : tree.contains id = true
  · rw [if_pos known] at ran
    exact Or.inr ⟨known, ran⟩
  · rw [if_neg known] at ran
    exact Or.inl ⟨_, ran⟩

theorem require_detached_checks (child : NodeId) :
    Checks (requireDetached child) fun tree => tree.Detached child := by
  intro tree
  unfold requireDetached
  rw [run_bind, run_get]
  cases recorded : tree.parent? child with
  | none =>
      refine Or.inr ⟨?_, ?_⟩
      · intro parent other
        rw [recorded] at other
        cases other
      · simp only [recorded]
        rfl
  | some parent =>
      by_cases listed : (tree.children parent).contains child = true
      · refine Or.inl ⟨.alreadyAttached child parent, ?_⟩
        simp only [recorded, if_pos listed]
        rfl
      · refine Or.inr ⟨?_, ?_⟩
        · intro other same
          rw [recorded] at same
          cases same
          simpa using listed
        · simp only [recorded, if_neg listed]
          rfl

theorem require_node_passes {tree : Tree} {id : NodeId} (known : tree.contains id = true) :
    (requireNode id).run.run tree = (.ok (), tree) := by
  have ran : (requireNode id).run.run tree =
      (if tree.contains id = true then pure () else throw (.unknownNode id) :
        TreeEdit Unit).run.run tree := rfl
  rw [if_pos known] at ran
  exact ran

theorem require_detached_passes {tree : Tree} {child : NodeId} (detached : tree.Detached child) :
    (requireDetached child).run.run tree = (.ok (), tree) := by
  unfold requireDetached
  rw [run_bind, run_get]
  cases recorded : tree.parent? child with
  | none =>
      simp only [recorded]
      rfl
  | some parent =>
      have absent : ¬(tree.children parent).contains child = true := by
        simpa using detached parent recorded
      simp only [recorded, if_neg absent]
      rfl

theorem require_node_refuses {tree : Tree} {id : NodeId} (unknown : ¬tree.contains id = true) :
    (requireNode id).run.run tree = (.error (.unknownNode id), tree) := by
  simp only [requireNode, run_bind, run_get, if_neg unknown]
  rfl

theorem run_child (tree : Tree) (parent : NodeId) (index : Nat) :
    (liftM (tree.child parent index) : TreeEdit NodeId).run.run tree =
      (tree.child parent index, tree) := by
  cases tree.child parent index <;> rfl

theorem leaves_then_return {Result : Type} (edit : TreeEdit Unit) (result : Result) (tree : Tree) :
    ((edit >>= fun _ => pure result).run.run tree).2 = (edit.run.run tree).2 := by
  rw [run_bind]
  cases edit.run.run tree with
  | mk outcome after => cases outcome <;> rfl

theorem Checks.leaves {Result : Type} {check : TreeEdit Unit} {passes : Tree → Prop}
    (checks : Checks check passes) {next : TreeEdit Result} {tree : Tree} (good : Tree → Prop)
    (unchanged : good tree) (continues : passes tree → good (next.run.run tree).2) :
    good ((check >>= fun _ => next).run.run tree).2 := by
  rw [run_bind]
  rcases checks tree with ⟨error, refused⟩ | ⟨passed, ran⟩
  · rw [refused]
    exact unchanged
  · rw [ran]
    exact continues passed

end TreeEdit

namespace Tree

variable {tree : Tree}

theorem empty_well_formed : Tree.empty.WellFormed :=
  ⟨consistent_of_arena (by decide) (by decide), ⟨nofun, nofun⟩⟩

theorem child_of_ok {parent child : NodeId} {index : Nat}
    (found : tree.child parent index = .ok child) :
    (tree.children parent)[index]? = some child := by
  unfold Tree.child at found
  unfold children
  cases issued : tree.node? parent with
  | none =>
      rw [issued] at found
      cases found
  | some node =>
      rw [issued] at found
      dsimp only at found
      cases listed : node.children[index]? with
      | none =>
          rw [listed] at found
          cases found
      | some other =>
          rw [listed] at found
          cases found
          exact listed

theorem WellFormed.rootAt (wellFormed : tree.WellFormed) {id : NodeId}
    (known : tree.contains id = true) : Tree.WellFormed { tree with root := some id } := by
  refine ⟨⟨wellFormed.parent_of_child, wellFormed.children_nodup, ?_⟩,
    ⟨wellFormed.id_of_position, wellFormed.parent_known⟩⟩
  intro root rooted
  cases rooted
  exact known

theorem WellFormed.attached (wellFormed : tree.WellFormed) {parent child : NodeId}
    (parentKnown : tree.contains parent = true) (childKnown : tree.contains child = true)
    (detached : tree.Detached child) :
    Tree.WellFormed ((tree.setParent child (some parent)).setChildren parent
      ((tree.setParent child (some parent)).children parent ++ [child])) := by
  have unlisted := wellFormed.unlisted detached
  have adopted : (tree.setParent child (some parent)).WellFormed := by
    refine ⟨wellFormed.toConsistent.setParent childKnown unlisted (some parent), ?_⟩
    exact wellFormed.toNumbered.setParent childKnown (recorded_known parentKnown)
  apply adopted.appendChild
  · exact contains_mono (Nat.le_of_eq (size_set_parent _ _).symm) parentKnown
  · intro lister listed
    rw [children_set_parent] at listed
    exact unlisted lister listed
  · rw [parent_set_parent childKnown, if_pos rfl]

end Tree

namespace TreeEdit

/-- A node is pushed under a parent that is there or under none, and without one it becomes the root of
a tree that has none. -/
theorem add_node_keeps {tree : Tree} (Keeps : Tree → Prop) (kept : Keeps tree)
    (parent : Option NodeId) (rule text : String) (span : Span)
    (pushed : ∀ parent : Option NodeId, (∀ lister ∈ parent, tree.contains lister = true) →
      Keeps (tree.push parent rule text span))
    (rooted : Keeps { tree.push none rule text span with root := some tree.size }) :
    Keeps ((addNode parent rule text span).run.run tree).2 := by
  cases parent with
  | some parent =>
      apply (require_node_checks parent).leaves Keeps kept
      intro parentKnown
      exact pushed (some parent) (Tree.recorded_known parentKnown)
  | none =>
      have added : ((addNode none rule text span).run.run tree).2 =
          if tree.root.isNone = true then
            { tree.push none rule text span with root := some tree.size }
          else tree.push none rule text span := by
        obtain ⟨nodes, root⟩ := tree
        cases root <;> rfl
      rw [added]
      split
      · exact rooted
      · exact pushed none (by simp)

variable {tree : Tree} (wellFormed : tree.WellFormed)
include wellFormed

theorem attach_child_well_formed (parent child : NodeId) :
    ((attachChild parent child).run.run tree).2.WellFormed := by
  unfold attachChild
  apply (require_node_checks parent).leaves Tree.WellFormed wellFormed
  intro parentKnown
  apply (require_node_checks child).leaves Tree.WellFormed wellFormed
  intro childKnown
  apply (require_detached_checks child).leaves Tree.WellFormed wellFormed
  intro detached
  exact wellFormed.attached parentKnown childKnown detached

theorem add_node_well_formed (parent : Option NodeId) (rule text : String) (span : Span) :
    ((addNode parent rule text span).run.run tree).2.WellFormed := by
  refine add_node_keeps Tree.WellFormed wellFormed parent rule text span
    (fun _ parentKnown => wellFormed.push parentKnown rule text span) ?_
  have pushed : (tree.push none rule text span).WellFormed :=
    wellFormed.push (by simp) rule text span
  exact pushed.rootAt (tree.contains_pushed none rule text span)

theorem push_child_well_formed (parent : NodeId) (rule text : String) (span : Span) :
    ((pushChild parent rule text span).run.run tree).2.WellFormed := by
  have added := add_node_well_formed wellFormed (some parent) rule text span
  unfold pushChild
  rw [run_bind]
  cases ran : (addNode (some parent) rule text span).run.run tree with
  | mk outcome after =>
      rw [ran] at added
      cases outcome with
      | error error => exact added
      | ok id =>
          have attached := attach_child_well_formed added parent id
          rw [← leaves_then_return (attachChild parent id) id] at attached
          exact attached

theorem set_root_well_formed (id : NodeId) : ((setRoot id).run.run tree).2.WellFormed := by
  unfold setRoot
  apply (require_node_checks id).leaves Tree.WellFormed wellFormed
  intro known
  exact wellFormed.rootAt known

theorem replace_child_well_formed (parent : NodeId) (index : Nat) (replacement : NodeId) :
    ((replaceChild parent index replacement).run.run tree).2.WellFormed := by
  unfold replaceChild
  apply (require_node_checks replacement).leaves Tree.WellFormed wellFormed
  intro known
  rw [run_bind, run_get]
  dsimp only
  rw [run_bind, run_child]
  cases found : tree.child parent index with
  | error error => exact wellFormed
  | ok old =>
      dsimp only
      by_cases same : old = replacement
      · rw [if_pos same]
        exact wellFormed
      · rw [if_neg same]
        apply (require_detached_checks replacement).leaves Tree.WellFormed wellFormed
        intro detached
        exact wellFormed.replaceAt (Tree.child_of_ok found) known (wellFormed.unlisted detached)

end TreeEdit

namespace TreeEdit

-- A node that is added and listed by one call

variable {tree : Tree} {parent : NodeId}

theorem push_child_refuses (unknown : ¬tree.contains parent = true) (rule text : String)
    (span : Span) :
    (pushChild parent rule text span).run.run tree = (.error (.unknownNode parent), tree) := by
  unfold pushChild addNode
  rw [run_bind, run_bind, require_node_refuses unknown]

variable (known : tree.contains parent = true) (rule text : String) (span : Span)
include known

theorem run_add_under :
    (addNode (some parent) rule text span).run.run tree =
      (.ok tree.size, tree.push (some parent) rule text span) := by
  unfold addNode
  rw [run_bind, require_node_passes known]
  rfl

/-- The number of a node that has just been added stands in no list, so listing it is not refused. -/
theorem run_attach_fresh (wellFormed : tree.WellFormed) :
    (attachChild parent tree.size).run.run (tree.push (some parent) rule text span) =
      (.ok (), (tree.push (some parent) rule text span).setChildren parent
        (tree.children parent ++ [tree.size])) := by
  let grown := tree.push (some parent) rule text span
  have parentKnown : grown.contains parent = true :=
    Tree.contains_mono (by rw [Tree.size_push]; exact Nat.le_succ _) known
  have freshKnown : grown.contains tree.size = true :=
    Tree.contains_pushed tree (some parent) rule text span
  have detached : grown.Detached tree.size := by
    intro lister _
    rw [Tree.children_push]
    exact wellFormed.fresh_unlisted lister
  have adopted : grown.setParent tree.size (some parent) = grown := Tree.push_set_parent _ _ _ _
  have listed : grown.children parent = tree.children parent := Tree.children_push _ _ _ _ _
  unfold attachChild
  rw [run_bind, require_node_passes parentKnown]
  dsimp only
  rw [run_bind, require_node_passes freshKnown]
  dsimp only
  rw [run_bind, require_detached_passes detached]
  dsimp only
  rw [run_bind, run_get]
  dsimp only
  rw [adopted, listed]
  rfl

/-- A node under a known one is not refused: it is added last, and listed last there. -/
theorem run_push_child (wellFormed : tree.WellFormed) :
    (pushChild parent rule text span).run.run tree = (.ok tree.size,
      (tree.setChildren parent (tree.children parent ++ [tree.size])).push (some parent) rule text
        span) := by
  unfold pushChild
  rw [run_bind, run_add_under known]
  dsimp only
  rw [run_bind, run_attach_fresh known rule text span wellFormed, Tree.push_set_children known]
  rfl

end TreeEdit

namespace Tree

variable {copied : NodeId}

/-- Copies of the children are listed one by one under their copied parent. -/
theorem copy_children_well_formed (children : List NodeId) (tree : Tree)
    (wellFormed : tree.WellFormed) (known : tree.contains copied = true) :
    (copyChildren copied children tree).2.WellFormed ∧
      tree.size ≤ (copyChildren copied children tree).2.size ∧
      ∀ pair ∈ (copyChildren copied children tree).1,
        (copyChildren copied children tree).2.contains pair.2 = true := by
  induction children generalizing tree with
  | nil => exact ⟨wellFormed, Nat.le_refl _, by simp [copyChildren]⟩
  | cons child rest induction =>
      unfold copyChildren
      cases issued : tree.node? child with
      | none => exact induction tree wellFormed known
      | some node =>
          -- The copy records its parent when it is pushed, and only then is listed there.
          have grown : (tree.push (some copied) node.rule node.text node.span).WellFormed :=
            wellFormed.push (recorded_known known) node.rule node.text node.span
          have knownThere : (tree.push (some copied) node.rule node.text node.span).contains copied =
              true := by
            apply contains_mono _ known
            rw [size_push]
            exact Nat.le_succ _
          have unlisted : (tree.push (some copied) node.rule node.text node.span).Unlisted
              tree.size := by
            intro lister listed
            rw [children_push] at listed
            exact wellFormed.fresh_unlisted lister listed
          have recorded : (tree.push (some copied) node.rule node.text node.span).parent?
              tree.size = some copied := by
            rw [parent_push, if_pos rfl]
          have listed := grown.appendChild knownThere unlisted recorded
          have later := induction _ listed
            (contains_mono (Nat.le_of_eq (size_set_children _ _).symm) knownThere)
          obtain ⟨final, larger, inside⟩ := later
          rw [size_set_children, size_push] at larger
          refine ⟨final, Nat.le_trans (Nat.le_succ _) larger, ?_⟩
          intro pair member
          rcases List.mem_cons.1 member with same | behind
          · rw [same]
            exact decide_eq_true (Nat.lt_of_lt_of_le (Nat.lt_succ_self _) larger)
          · exact inside pair behind

section Copying

variable (Keeps : Tree → Prop)
  (step : ∀ (copied : NodeId) (children : List NodeId) (tree : Tree), tree.WellFormed →
    tree.contains copied = true → Keeps tree → Keeps (copyChildren copied children tree).2)
include step

/-- Whatever every list of children keeps when it is copied is kept by all that are pending. -/
theorem copy_pending_keeps (bound : Nat) (pending : List (NodeId × NodeId)) (tree : Tree)
    (wellFormed : tree.WellFormed) (known : ∀ pair ∈ pending, tree.contains pair.2 = true)
    (kept : Keeps tree) : Keeps (copyPending bound pending tree) := by
  induction bound generalizing pending tree with
  | zero => exact kept
  | succ bound induction =>
      cases pending with
      | nil => exact kept
      | cons first pending =>
          obtain ⟨source, copied⟩ := first
          have copiedKnown : tree.contains copied = true := known (source, copied) (by simp)
          obtain ⟨grown, larger, inside⟩ :=
            copy_children_well_formed (tree.children source) tree wellFormed copiedKnown
          rw [copyPending]
          refine induction _ _ grown ?_ (step copied _ tree wellFormed copiedKnown kept)
          intro pair member
          rcases List.mem_append.1 member with fresh | earlier
          · exact inside pair (List.mem_reverse.1 fresh)
          · exact contains_mono larger (known pair (by simp [earlier]))

theorem deep_copy_keeps {tree : Tree} (wellFormed : tree.WellFormed) (kept : Keeps tree)
    (pushed : ∀ rule text span, Keeps (tree.push none rule text span)) (id : NodeId) :
    Keeps ((TreeEdit.deepCopy id).run.run tree).2 := by
  unfold TreeEdit.deepCopy
  apply (TreeEdit.require_node_checks id).leaves Keeps kept
  intro known
  obtain ⟨node, issued⟩ := node_of_known known
  rw [run_bind, TreeEdit.run_get]
  dsimp only
  rw [issued]
  refine copy_pending_keeps Keeps step _ _ _ ?_ ?_ (pushed node.rule node.text node.span)
  · exact wellFormed.push (by simp) node.rule node.text node.span
  · intro pair member
    rw [List.mem_singleton.1 member]
    exact tree.contains_pushed none node.rule node.text node.span

end Copying

theorem deep_copy_well_formed {tree : Tree} (wellFormed : tree.WellFormed) (id : NodeId) :
    ((TreeEdit.deepCopy id).run.run tree).2.WellFormed :=
  deep_copy_keeps WellFormed
    (fun _ children tree _ known kept => (copy_children_well_formed children tree kept known).1)
    wellFormed wellFormed (fun rule text span => wellFormed.push (by simp) rule text span) id

end Tree

theorem EditCall.leaves_well_formed {tree : Tree} (wellFormed : tree.WellFormed)
    (call : EditCall) : (call.leaves tree).WellFormed := by
  cases call with
  | addNode parent rule text span =>
      exact TreeEdit.add_node_well_formed wellFormed parent rule text span
  | attachChild parent child => exact TreeEdit.attach_child_well_formed wellFormed parent child
  | pushChild parent rule text span =>
      exact TreeEdit.push_child_well_formed wellFormed parent rule text span
  | replaceChild parent index replacement =>
      exact TreeEdit.replace_child_well_formed wellFormed parent index replacement
  | deepCopy id => exact Tree.deep_copy_well_formed wellFormed id
  | setRoot id => exact TreeEdit.set_root_well_formed wellFormed id

namespace Tree

theorem Reachable.wellFormed {tree : Tree} (reachable : tree.Reachable) : tree.WellFormed := by
  induction reachable with
  | empty => exact empty_well_formed
  | withRoot rule text span =>
      exact (empty_well_formed.push (by simp) rule text span).rootAt
        (Tree.empty.contains_pushed none rule text span)
  | edited _ call induction => exact EditCall.leaves_well_formed induction call

theorem Reachable.afterCalls {tree : Tree} (reachable : tree.Reachable) (calls : List EditCall) :
    (calls.foldl EditCall.leaves tree).Reachable := by
  induction calls generalizing tree with
  | nil => exact reachable
  | cons call rest induction => exact induction (reachable.edited call)

/-- The numbers that occur in a tree: as its root, as a recorded parent, or in a list of children. -/
def Mentions (tree : Tree) (id : NodeId) : Prop :=
  tree.root = some id ∨ (∃ node, tree.parent? node = some id) ∨ ∃ node, id ∈ tree.children node

theorem WellFormed.contains_mentioned {tree : Tree} (wellFormed : tree.WellFormed) {id : NodeId}
    (mentioned : tree.Mentions id) : tree.contains id = true := by
  rcases mentioned with rooted | ⟨node, recorded⟩ | ⟨node, listed⟩
  · exact wellFormed.root_known id rooted
  · exact wellFormed.parent_known node id recorded
  · exact wellFormed.child_known listed

/-- A node has one recorded parent, so no two lists share a node. -/
theorem Consistent.listed_once {tree : Tree} (consistent : tree.Consistent) :
    (tree.nodes.toList.flatMap Node.children).Nodup := by
  have lists : ∀ (position : Nat) (inside : position < tree.nodes.toList.length),
      tree.nodes.toList[position].children = tree.children position := by
    intro position inside
    have issued : tree.node? position = some tree.nodes.toList[position] := by
      rw [node?, ← Array.getElem?_toList, List.getElem?_eq_getElem inside]
    rw [children, issued]
    rfl
  apply List.pairwise_flatMap.2
  constructor
  · intro node member
    obtain ⟨position, inside, same⟩ := List.getElem_of_mem member
    rw [← same, lists]
    exact consistent.children_nodup position
  -- A child of two lists would record both of their nodes.
  · apply List.pairwise_iff_getElem.2
    intro earlier later earlierInside laterInside less child listed other otherListed same
    rw [lists] at listed otherListed
    rw [← same] at otherListed
    have recorded := consistent.parent_of_child earlier child listed
    rw [consistent.parent_of_child later child otherListed] at recorded
    exact Nat.ne_of_lt less (Option.some.inj recorded).symm

/-- Whatever edits are called, and whether or not they are refused: a node's number is its position,
every number that occurs was issued by the tree, a listed child records the node that lists it, and
all lists of children together hold no node twice. -/
theorem Reachable.links_agree {tree : Tree} (reachable : tree.Reachable) :
    (∀ position node, tree.node? position = some node → node.id = position) ∧
      (∀ id, tree.Mentions id → tree.contains id = true) ∧
      (∀ parent child, child ∈ tree.children parent → tree.parent? child = some parent) ∧
      (tree.nodes.toList.flatMap Node.children).Nodup :=
  have wellFormed := reachable.wellFormed
  ⟨wellFormed.id_of_position, fun _ mentioned => wellFormed.contains_mentioned mentioned,
    wellFormed.parent_of_child, wellFormed.listed_once⟩

/-- In a tree of no more than `NodeId.bound` nodes every number that occurs fits into 32 bits, and so
does the number of the next node as long as there is room for it. -/
theorem Reachable.ids_fit {tree : Tree} (reachable : tree.Reachable)
    (small : tree.size ≤ NodeId.bound) :
    (∀ position node, tree.node? position = some node → node.id.toUInt32.toNat = node.id) ∧
      (∀ id, tree.Mentions id → id.toUInt32.toNat = id) ∧
      (tree.size < NodeId.bound → tree.size.toUInt32.toNat = tree.size) := by
  have kept : ∀ id, id < NodeId.bound → id.toUInt32.toNat = id :=
    fun id inside => UInt32.toNat_ofNat_of_lt' inside
  have issued : ∀ id, tree.contains id = true → id < NodeId.bound :=
    fun id known => Nat.lt_of_lt_of_le (of_decide_eq_true known) small
  have wellFormed := reachable.wellFormed
  refine ⟨?_, ?_, kept tree.size⟩
  · intro position node found
    rw [wellFormed.id_of_position position node found]
    exact kept position (issued position (known_of_found found))
  · intro id mentioned
    exact kept id (issued id (wellFormed.contains_mentioned mentioned))

/-- Node 3 records one parent and is attached to another one, which is then copied; the copy takes
the place of node 1, which moves below it. Two of the calls are refused. -/
def rearranged : Tree :=
  let span : Span := ⟨0, 0, 1, 0⟩
  [EditCall.addNode none "module" "m" span, .pushChild 0 "def" "f" span,
    .pushChild 0 "def" "g" span, .addNode (some 1) "name" "x" span, .attachChild 2 3,
    .attachChild 1 3, .deepCopy 2, .replaceChild 0 0 4, .attachChild 4 1, .setRoot 9].foldl
    EditCall.leaves .empty

theorem rearranged_links_agree :
    rearranged.Reachable ∧
      (rearranged.nodes.toList.map fun node => (node.id, node.parent, node.children)) =
        [(0, none, [4, 2]), (1, some 4, []), (2, some 0, [3]), (3, some 2, []),
          (4, some 0, [5, 1]), (5, some 4, [])] ∧
      (rearranged.nodes.toList.flatMap Node.children).Nodup ∧
      rearranged.parent? 1 = some 4 := by
  have reachable : rearranged.Reachable := Reachable.empty.afterCalls _
  obtain ⟨_, _, recorded, once⟩ := reachable.links_agree
  refine ⟨reachable, by decide +kernel, once, recorded 4 1 ?_⟩
  decide +kernel

end Tree

end SyntaxGraph
