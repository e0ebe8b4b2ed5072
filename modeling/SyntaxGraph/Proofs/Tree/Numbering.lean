import SyntaxGraph.Proofs.Tree.Walk
import SyntaxGraph.Proofs.Tree.Writes

/-!
Trees whose numbers follow the pre-order. The nodes of a subtree then stand side by side, the top
first and behind it the subtrees of its children, one after another. Where that holds of the whole
arena, the walk from the root passes the numbers in turn, and the children of a node are those that
record it, in increasing order.
-/

set_option autoImplicit false

namespace SyntaxGraph

namespace Tree

variable {tree : Tree}

-- Nodes one after another

/-- The tree holds the nodes one after another, the first one under the given number. -/
def HoldsFrom (tree : Tree) (id : NodeId) (nodes : List Node) : Prop :=
  nodes <+: tree.nodes.toList.drop id

theorem holds_from_start (tree : Tree) : tree.HoldsFrom 0 tree.nodes.toList :=
  List.prefix_refl _

theorem HoldsFrom.node {id : NodeId} {node : Node} {nodes : List Node}
    (holds : tree.HoldsFrom id (node :: nodes)) : tree.node? id = some node := by
  obtain ⟨after, split⟩ := holds
  have first := congrArg List.head? split
  rw [List.head?_drop] at first
  simpa [node?] using first.symm

theorem HoldsFrom.tail {id : NodeId} {node : Node} {nodes : List Node}
    (holds : tree.HoldsFrom id (node :: nodes)) : tree.HoldsFrom (id + 1) nodes := by
  obtain ⟨after, split⟩ := holds
  refine ⟨after, ?_⟩
  have behind := congrArg List.tail split
  rwa [List.tail_drop] at behind

theorem HoldsFrom.left {id : NodeId} {nodes others : List Node}
    (holds : tree.HoldsFrom id (nodes ++ others)) : tree.HoldsFrom id nodes :=
  (List.prefix_append nodes others).trans holds

theorem HoldsFrom.right {id : NodeId} {nodes others : List Node}
    (holds : tree.HoldsFrom id (nodes ++ others)) : tree.HoldsFrom (id + nodes.length) others := by
  obtain ⟨after, split⟩ := holds
  refine ⟨after, ?_⟩
  rw [← List.drop_drop, ← split, List.append_assoc, List.drop_left]

-- Segments

mutual

/-- The nodes from one number up to another one are those of a subtree in pre-order; the first of
them is its top, which records the given parent. -/
inductive Block (tree : Tree) : Option NodeId → Nat → Nat → Prop
  | node {parent : Option NodeId} {id past : Nat} {node : Node} (found : tree.node? id = some node)
      (recorded : node.parent = parent) (below : Blocks tree id (id + 1) node.children past) :
      Block tree parent id past

inductive Blocks (tree : Tree) : NodeId → Nat → List NodeId → Nat → Prop
  | done {parent : NodeId} {past : Nat} : Blocks tree parent past [] past
  | more {parent : NodeId} {id middle past : Nat} {rest : List NodeId}
      (first : Block tree (some parent) id middle) (later : Blocks tree parent middle rest past) :
      Blocks tree parent id (id :: rest) past

end

/-- What the nodes of a segment have in common: each lists later nodes of the segment only, in
increasing order, and is recorded as their parent. -/
structure Segment (tree : Tree) (first past : Nat) : Prop where
  ordered : first ≤ past
  listed : ∀ node, first ≤ node → node < past → ∀ child ∈ tree.children node,
    node < child ∧ child < past ∧ tree.parent? child = some node
  increasing : ∀ node, first ≤ node → node < past → (tree.children node).Pairwise (· < ·)

structure TopSegment (tree : Tree) (parent : Option NodeId) (id past : Nat) : Prop
    extends tree.Segment id past where
  nonempty : id < past
  recorded : tree.parent? id = parent
  hanging : ∀ child, id < child → child < past → ∃ node, child ∈ tree.children node
  walked : ∀ levels, past - id ≤ levels →
    tree.subtreeWithin levels id = List.range' id (past - id)

structure SiblingSegment (tree : Tree) (parent : NodeId) (id : Nat) (siblings : List NodeId)
    (past : Nat) : Prop extends tree.Segment id past where
  inside : ∀ sibling ∈ siblings, id ≤ sibling ∧ sibling < past ∧ tree.parent? sibling = some parent
  sorted : siblings.Pairwise (· < ·)
  hanging : ∀ child, id ≤ child → child < past →
    child ∈ siblings ∨ ∃ node, child ∈ tree.children node
  walked : ∀ levels, past - id ≤ levels →
    siblings.flatMap (tree.subtreeWithin levels) = List.range' id (past - id)

theorem Segment.append {first middle past : Nat} (earlier : tree.Segment first middle)
    (later : tree.Segment middle past) : tree.Segment first past := by
  have start := earlier.ordered
  have stop := later.ordered
  refine ⟨Nat.le_trans start stop, ?_, ?_⟩
  · intro node lower upper child member
    by_cases before : node < middle
    · obtain ⟨less, inside, recorded⟩ := earlier.listed node lower before child member
      exact ⟨less, Nat.lt_of_lt_of_le inside stop, recorded⟩
    · exact later.listed node (Nat.not_lt.1 before) upper child member
  · intro node lower upper
    by_cases before : node < middle
    · exact earlier.increasing node lower before
    · exact later.increasing node (Nat.not_lt.1 before) upper

mutual

theorem Block.segment {parent : Option NodeId} {id past : Nat} :
    tree.Block parent id past → tree.TopSegment parent id past
  | @Block.node _ _ _ _ node found recorded below => by
      have siblings := below.segment
      have start := siblings.ordered
      have listed : tree.children id = node.children := by
        rw [Tree.children, found]
        rfl
      refine ⟨⟨Nat.le_of_lt start, ?_, ?_⟩, start, ?_, ?_, ?_⟩
      · intro other lower upper child member
        by_cases top : other = id
        · rw [top, listed] at member
          obtain ⟨behind, inside, sameParent⟩ := siblings.inside child member
          rw [top]
          exact ⟨behind, inside, sameParent⟩
        · exact siblings.listed other (Nat.lt_of_le_of_ne lower (Ne.symm top)) upper child member
      · intro other lower upper
        by_cases top : other = id
        · rw [top, listed]
          exact siblings.sorted
        · exact siblings.increasing other (Nat.lt_of_le_of_ne lower (Ne.symm top)) upper
      · rw [parent?, found]
        exact recorded
      · intro child lower upper
        rcases siblings.hanging child lower upper with member | hangs
        · exact ⟨id, by rw [listed]; exact member⟩
        · exact hangs
      · intro levels enough
        obtain ⟨levels, rfl⟩ : ∃ fewer, levels = fewer + 1 := ⟨levels - 1, by omega⟩
        obtain ⟨count, same⟩ : ∃ count, past - id = count + 1 := ⟨past - id - 1, by omega⟩
        have short : past - (id + 1) = count := by omega
        rw [subtreeWithin, listed, siblings.walked levels (by omega), same, short, List.range'_succ]

theorem Blocks.segment {parent : NodeId} {id past : Nat} {siblings : List NodeId} :
    tree.Blocks parent id siblings past → tree.SiblingSegment parent id siblings past
  | .done => by
      have nothing : ∀ node, id ≤ node → ¬node < id := fun node lower => Nat.not_lt.2 lower
      refine ⟨⟨Nat.le_refl _, ?_, ?_⟩, by simp, List.Pairwise.nil, ?_, by simp⟩
      · intro node lower upper
        exact absurd upper (nothing node lower)
      · intro node lower upper
        exact absurd upper (nothing node lower)
      · intro child lower upper
        exact absurd upper (nothing child lower)
  | @Blocks.more _ _ _ middle _ rest firstBlock laterBlocks => by
      have top := firstBlock.segment
      have later := laterBlocks.segment
      have start := top.nonempty
      have stop := later.ordered
      refine ⟨top.toSegment.append later.toSegment, ?_, ?_, ?_, ?_⟩
      · intro sibling member
        rcases List.mem_cons.1 member with same | behind
        · rw [same]
          exact ⟨Nat.le_refl _, Nat.lt_of_lt_of_le start stop, top.recorded⟩
        · obtain ⟨lower, upper, recorded⟩ := later.inside sibling behind
          exact ⟨Nat.le_trans (Nat.le_of_lt start) lower, upper, recorded⟩
      · refine List.pairwise_cons.2 ⟨?_, later.sorted⟩
        intro sibling member
        exact Nat.lt_of_lt_of_le start (later.inside sibling member).1
      · intro child lower upper
        by_cases here : child = id
        · exact Or.inl (by rw [here]; exact List.mem_cons_self)
        · by_cases before : child < middle
          · exact Or.inr (top.hanging child (Nat.lt_of_le_of_ne lower (Ne.symm here)) before)
          · rcases later.hanging child (Nat.not_lt.1 before) upper with member | hangs
            · exact Or.inl (List.mem_cons_of_mem _ member)
            · exact Or.inr hangs
      · intro levels enough
        rw [List.flatMap_cons, top.walked levels (by omega), later.walked levels (by omega)]
        have join := List.range'_append_1 (s := id) (m := middle - id) (n := past - middle)
        have reached : id + (middle - id) = middle := by omega
        have total : middle - id + (past - middle) = past - id := by omega
        rw [reached, total] at join
        exact join

end

/-- The numbers of a tree follow its pre-order: the walk from the root passes them in turn. Every node
but the root records a parent, and the lists hold the nodes that record their owner, in increasing
order. -/
structure NumberedInPreorder (tree : Tree) : Prop where
  rooted : tree.root = some 0
  walked : tree.preorder = List.range tree.size
  root_parentless : tree.parent? 0 = none
  others_parented : ∀ child, 0 < child → child < tree.size → ∃ parent, tree.parent? child = some parent
  listed_iff : ∀ parent child, child ∈ tree.children parent ↔ tree.parent? child = some parent
  increasing : ∀ parent, (tree.children parent).Pairwise (· < ·)

theorem Block.numbered (block : tree.Block none 0 tree.size) (rooted : tree.root = some 0) :
    tree.NumberedInPreorder := by
  have segment := block.segment
  have listed : ∀ parent child, child ∈ tree.children parent →
      parent < child ∧ child < tree.size ∧ tree.parent? child = some parent := by
    intro parent child member
    exact segment.listed parent (Nat.zero_le _) (of_decide_eq_true (known_of_listing member)) child
      member
  have hanging : ∀ child, 0 < child → child < tree.size →
      ∃ parent, child ∈ tree.children parent ∧ tree.parent? child = some parent := by
    intro child lower upper
    obtain ⟨parent, member⟩ := segment.hanging child lower upper
    exact ⟨parent, member, (listed parent child member).2.2⟩
  have increasing : ∀ parent, (tree.children parent).Pairwise (· < ·) := by
    intro parent
    by_cases inside : parent < tree.size
    · exact segment.increasing parent (Nat.zero_le _) inside
    · have unknown : ¬tree.contains parent = true := fun known => inside (of_decide_eq_true known)
      rw [Tree.children, node_of_unknown unknown]
      exact List.Pairwise.nil
  have consistent : tree.Consistent := by
    refine ⟨fun parent child member => (listed parent child member).2.2, ?_, ?_⟩
    · exact fun parent => (increasing parent).imp fun less => Nat.ne_of_lt less
    · intro root same
      rw [rooted] at same
      cases same
      exact decide_eq_true segment.nonempty
  have acyclic : tree.Acyclic :=
    acyclic_of_downward fun parent _ child member => (listed parent child member).1
  refine ⟨rooted, ?_, segment.recorded, ?_, ?_, increasing⟩
  · rw [preorder_eq_subtree consistent acyclic rooted, subtree,
      segment.walked tree.size (Nat.le_refl _), Nat.sub_zero, List.range_eq_range']
  · intro child lower upper
    obtain ⟨parent, _, recorded⟩ := hanging child lower upper
    exact ⟨parent, recorded⟩
  · intro parent child
    constructor
    · intro member
      exact (listed parent child member).2.2
    · intro recorded
      have notRoot : 0 < child := by
        apply Nat.pos_of_ne_zero
        intro same
        rw [same, segment.recorded] at recorded
        cases recorded
      obtain ⟨lister, member, same⟩ :=
        hanging child notRoot (of_decide_eq_true (known_of_parent recorded))
      rw [recorded] at same
      rw [Option.some.inj same]
      exact member

end Tree

end SyntaxGraph
