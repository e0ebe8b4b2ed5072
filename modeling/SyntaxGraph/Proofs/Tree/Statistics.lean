import Mathlib.Data.Set.Card
import SyntaxGraph.Proofs.Tree.BottomUp

/-!
The statistics of a tree. Evaluation from the leaves upwards puts a node's statistics together from
those of its children; they come to the number of nodes below it, of those without children, and of
the nodes on the longest way down.
-/

set_option autoImplicit false

namespace SyntaxGraph

namespace SubtreeStats

def ofChildren : List SubtreeStats → SubtreeStats
  | [] => leaf
  | below =>
      ⟨(below.map (·.size)).foldl (· + ·) 1, (below.map (·.height)).foldl max 0 + 1,
        (below.map (·.leaves)).foldl (· + ·) 0⟩

theorem known_children (below : List SubtreeStats) : (below.map some).mapM id = some below := by
  induction below with
  | nil => rfl
  | cons stats below induction =>
      rw [List.map_cons, List.mapM_cons, induction]
      rfl

theorem combine_known {below : List SubtreeStats} (nonempty : below ≠ []) :
    combine (below.map some) = some (ofChildren below) := by
  obtain ⟨stats, rest, rfl⟩ := List.exists_cons_of_ne_nil nonempty
  rw [combine, known_children]
  rfl

theorem of_children_inner {below : List SubtreeStats} (nonempty : below ≠ []) :
    ofChildren below = ⟨1 + (below.map (·.size)).sum, (below.map (·.height)).foldl max 0 + 1,
      (below.map (·.leaves)).sum⟩ := by
  obtain ⟨stats, rest, rfl⟩ := List.exists_cons_of_ne_nil nonempty
  have added : ∀ (counts : List Nat) start, counts.foldl (· + ·) start = start + counts.sum :=
    fun _ _ => List.foldl_eq_apply_foldr
  simp only [ofChildren, added, Nat.zero_add]

theorem transform_computes (tree : Tree) :
    transform.Computes tree fun _ below => .ok (ofChildren below) := by
  intro id values state below present
  have same := congrArg List.length present
  rw [List.length_map, List.length_map] at same
  rw [transform]
  dsimp only
  split
  · rename_i childless
    rw [childless] at same
    rw [List.length_eq_zero_iff.1 same.symm]
    rfl
  · rename_i inner
    have nonempty : below ≠ [] := by
      intro nothing
      rw [nothing] at same
      exact inner (List.length_eq_zero_iff.1 same)
    rw [present, combine_known nonempty]

end SubtreeStats

namespace Tree

/-- What the statistics of a node say: how many nodes there are in its subtree, how many nodes the
longest way down to one of them has, and how many of them have no children. -/
structure Measures (tree : Tree) (node : NodeId) (stats : SubtreeStats) : Prop where
  size : {found | Relation.ReflTransGen tree.IsChild node found}.encard = stats.size
  height : IsGreatest {levels | ∃ above found, tree.Descent node above found ∧
    (above ++ [found]).length = levels} stats.height
  leaves : {found | Relation.ReflTransGen tree.IsChild node found ∧
    tree.children found = []}.encard = stats.leaves

def height (tree : Tree) : NodeId → Nat := tree.fold 0 fun _ below => below.foldl max 0 + 1

def counted (tree : Tree) (node : NodeId) : SubtreeStats :=
  ⟨(tree.subtree node).length, tree.height node,
    ((tree.subtree node).filter fun found => (tree.children found).isEmpty).length⟩

variable {tree : Tree}

theorem le_highest {heights : List Nat} {height : Nat} (member : height ∈ heights) :
    height ≤ heights.foldl max 0 := by
  rw [List.foldl_max, Nat.zero_max]
  exact List.le_max?_getD_of_mem member

theorem highest_mem {heights : List Nat} (nonempty : heights ≠ []) :
    heights.foldl max 0 ∈ heights := by
  rw [List.foldl_max, Nat.zero_max, List.max?_eq_some_max nonempty]
  exact List.max_mem nonempty

section Counting

variable (consistent : tree.Consistent) (acyclic : tree.Acyclic)
include consistent acyclic

theorem height_unfold {node : NodeId} (known : tree.contains node = true) :
    tree.height node = ((tree.children node).map tree.height).foldl max 0 + 1 :=
  fold_unfold consistent acyclic known _ _

theorem height_greatest {node : NodeId} (known : tree.contains node = true) :
    IsGreatest {levels | ∃ above found, tree.Descent node above found ∧
      (above ++ [found]).length = levels} (tree.height node) := by
  refine consistent.from_leaves acyclic (fun node known below => ?_) known
  rw [height_unfold consistent acyclic known]
  constructor
  · by_cases childless : tree.children node = []
    · exact ⟨[], node, Descent.here, by rw [childless]; rfl⟩
    · have nonempty : (tree.children node).map tree.height ≠ [] := List.map_eq_nil_iff.not.2 childless
      obtain ⟨child, listed, highest⟩ := List.mem_map.1 (highest_mem nonempty)
      obtain ⟨way, found, descent, long⟩ := (below child listed).1
      refine ⟨node :: way, found, descent.under listed, ?_⟩
      rw [← highest, ← long]
      rfl
  · rintro levels ⟨above, found, descent, rfl⟩
    rcases descent.from_top with ⟨rfl, -⟩ | ⟨child, listed, way, rfl, further⟩
    · exact Nat.le_add_left 1 _
    · have lower := (below child listed).2 ⟨way, found, further, rfl⟩
      have among := le_highest (List.mem_map_of_mem (f := tree.height) listed)
      exact Nat.succ_le_succ (Nat.le_trans lower among)

theorem counted_unfold {node : NodeId} (known : tree.contains node = true) :
    tree.counted node = .ofChildren ((tree.children node).map tree.counted) := by
  by_cases childless : tree.children node = []
  · simp [counted, height_unfold consistent acyclic known, subtree_unfold consistent acyclic known,
      childless, SubtreeStats.ofChildren, SubtreeStats.leaf]
  · have nonempty : (tree.children node).map tree.counted ≠ [] := List.map_eq_nil_iff.not.2 childless
    have inner : (tree.children node).isEmpty = false := List.isEmpty_eq_false_iff.2 childless
    rw [SubtreeStats.of_children_inner nonempty, counted, height_unfold consistent acyclic known,
      subtree_unfold consistent acyclic known, List.filter_cons, inner, List.length_cons,
      List.length_flatMap, List.filter_flatMap]
    simp [counted, List.length_flatMap, Function.comp_def, Nat.add_comm]

/-- Any selection of the subtree's nodes is counted once each. -/
theorem encard_below {node : NodeId} (known : tree.contains node = true) (chosen : NodeId → Bool) :
    {found | Relation.ReflTransGen tree.IsChild node found ∧ chosen found = true}.encard =
      ((tree.subtree node).filter chosen).length := by
  have nodup : ((tree.subtree node).filter chosen).Nodup :=
    (subtree_within_nodup consistent acyclic tree.size node).filter _
  have same : {found | Relation.ReflTransGen tree.IsChild node found ∧ chosen found = true} =
      (((tree.subtree node).filter chosen).toFinset : Set NodeId) := by
    ext found
    simp [mem_subtree_iff consistent acyclic known]
  rw [same, Set.encard_coe_eq_coe_finsetCard, List.toFinset_card_of_nodup nodup]

theorem counted_measures {node : NodeId} (known : tree.contains node = true) :
    tree.Measures node (tree.counted node) := by
  refine ⟨?_, height_greatest consistent acyclic known, ?_⟩
  · simpa [counted] using encard_below consistent acyclic known fun _ => true
  · simpa [counted] using encard_below consistent acyclic known fun found =>
      (tree.children found).isEmpty

theorem evaluate_counted {node : NodeId} (known : tree.contains node = true) :
    tree.evaluate (fun _ below => .ok (.ofChildren below)) node = .ok (tree.counted node) := by
  refine consistent.from_leaves acyclic (fun node known below => ?_) known
  have inner : (tree.children node).map (tree.evaluate fun _ below => .ok (.ofChildren below)) =
      ((tree.children node).map tree.counted).map Except.ok := by
    rw [List.map_map]
    exact List.map_congr_left below
  rw [evaluate_unfold consistent acyclic known, inner, mapM_ok,
    counted_unfold consistent acyclic known]
  rfl

end Counting

theorem stats_run (consistent : tree.Consistent) (acyclic : tree.Acyclic) {order : List NodeId}
    (first : tree.ChildrenFirst order) :
    ∃ values, tree.applyAlong SubtreeStats.transform order tree.noValues () = (.ok values, ()) ∧
      ∀ node, NodeValues.find? values node =
        if node ∈ tree.preorder then some (tree.counted node) else none := by
  have evaluates : ∀ node ∈ tree.preorder,
      tree.evaluate (fun _ below => .ok (.ofChildren below)) node = .ok (tree.counted node) :=
    fun node member => evaluate_counted consistent acyclic
      (decide_eq_true (known_of_mem_preorder consistent acyclic member))
  obtain ⟨evaluated, succeeds⟩ := any_order_evaluates consistent acyclic
    (SubtreeStats.transform_computes tree) first ()
  obtain ⟨values, final, ran⟩ := succeeds.2 fun node member => ⟨_, evaluates node member⟩
  refine ⟨values, ran, fun node => ?_⟩
  rw [evaluated values final ran, Tree.evaluated]
  split
  · rename_i member
    rw [evaluates node member]
    rfl
  · rfl

/-- A tree with a root yields statistics for every node that the root leads to, and for no other one:
what they say is true of the node's subtree. The summary is the root's, and agrees with the walks. -/
theorem stats_measure (consistent : tree.Consistent) (acyclic : tree.Acyclic)
    (apart : tree.RootApart) :
    (tree.root = none → tree.stats = .error (.refused .emptyTree)) ∧
    ∀ root, tree.root = some root → ∃ report, tree.stats = .ok report ∧
      (∀ node, (NodeValues.find? report.perNode node).isSome ↔
        Relation.ReflTransGen tree.IsChild root node) ∧
      (∀ node stats, NodeValues.find? report.perNode node = some stats →
        tree.Measures node stats) ∧
      NodeValues.find? report.perNode root = some report.summary ∧
      report.summary.size = tree.preorder.length ∧
      report.summary.leaves = tree.leaves.length := by
  have outcome := process_bottom_up_apart consistent acyclic apart SubtreeStats.transform ()
  have first := (queue_works_off consistent acyclic).children_first
  have last := first.getLast?_eq_root consistent acyclic
  constructor
  · intro rootless
    have nothing : tree.queueOrder = [] := by rwa [rootless, List.getLast?_eq_none_iff] at last
    rw [stats, outcome, if_pos nothing]
  · intro root rooted
    have something : tree.queueOrder ≠ [] := by
      intro nothing
      rw [nothing, rooted] at last
      cases last
    obtain ⟨values, ran, held⟩ := stats_run consistent acyclic first
    have walked := preorder_eq_subtree consistent acyclic rooted
    have known := consistent.root_known root rooted
    have reached : ∀ node, node ∈ tree.preorder ↔ Relation.ReflTransGen tree.IsChild root node := by
      intro node
      rw [walked, mem_subtree_iff consistent acyclic known]
    have rootHeld : NodeValues.find? values root = some (tree.counted root) := by
      rw [held, if_pos ((reached root).2 Relation.ReflTransGen.refl)]
    refine ⟨⟨tree.counted root, values⟩, ?_, fun node => ?_, fun node stats found => ?_, rootHeld,
      ?_, ?_⟩
    · rw [stats, outcome, if_neg something, ran]
      simp only [SubtreeStats.transform, rooted, rootHeld, Except.mapError]
    · rw [held, ← reached, Option.isSome_ite]
    · rw [held] at found
      split at found
      · rename_i member
        cases found
        exact counted_measures consistent acyclic
          (decide_eq_true (known_of_mem_preorder consistent acyclic member))
      · cases found
    · rw [walked]
      rfl
    · rw [leaves, walked]
      rfl

/-- A call with a name and a list of one word. A second word records the name as its parent, which does
not list it. -/
def callBesideWord : Tree where
  nodes := #[⟨0, "call", "", ⟨0, 0, 1, 0⟩, none, [1, 2]⟩, ⟨1, "name", "f", ⟨0, 0, 1, 0⟩, some 0, []⟩,
    ⟨2, "list", "", ⟨0, 0, 1, 0⟩, some 0, [3]⟩, ⟨3, "word", "x", ⟨0, 0, 1, 0⟩, some 2, []⟩,
    ⟨4, "word", "y", ⟨0, 0, 1, 0⟩, some 1, []⟩]
  root := some 0

theorem call_beside_word_statistics :
    callBesideWord.Consistent ∧ callBesideWord.Acyclic ∧ callBesideWord.RootApart ∧
      callBesideWord.stats =
        .ok ⟨⟨4, 3, 2⟩, #[some ⟨4, 3, 2⟩, some ⟨1, 1, 1⟩, some ⟨2, 2, 1⟩, some ⟨1, 1, 1⟩, none]⟩ ∧
      callBesideWord.Measures 0 ⟨4, 3, 2⟩ ∧ callBesideWord.Measures 2 ⟨2, 2, 1⟩ ∧
      ¬Relation.ReflTransGen callBesideWord.IsChild 0 4 := by
  have consistent : callBesideWord.Consistent := consistent_of_arena (by decide) (by decide)
  have acyclic : callBesideWord.Acyclic := acyclic_of_downward (by decide)
  have apart : callBesideWord.RootApart := by
    rintro parent ⟨root, rooted, recorded, -⟩
    cases rooted
    cases recorded
  have ran : callBesideWord.stats = .ok ⟨⟨4, 3, 2⟩,
      #[some ⟨4, 3, 2⟩, some ⟨1, 1, 1⟩, some ⟨2, 2, 1⟩, some ⟨1, 1, 1⟩, none]⟩ := by
    rfl
  obtain ⟨report, same, keys, measured, -⟩ :=
    (stats_measure consistent acyclic apart).2 0 rfl
  cases ran.symm.trans same
  refine ⟨consistent, acyclic, apart, ran, measured 0 _ rfl, measured 2 _ rfl, ?_⟩
  intro reaches
  cases (keys 4).2 reaches

end Tree

end SyntaxGraph
