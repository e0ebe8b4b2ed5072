import SyntaxGraph.Proofs.Tree.ArenaWrites
import SyntaxGraph.Proofs.Tree.BottomUp
import SyntaxGraph.Proofs.Tree.Termination

/-!
The counts of children during an evaluation from the leaves upwards. A count is set up from a list of
children, and goes down whenever a node is done that records its owner as parent. For a node that is
listed this comes to the same. The root is listed nowhere, but may record a node below itself as its
parent; then the last step of all counts off where nothing is left to count, and the evaluation
overflows.
-/

set_option autoImplicit false

namespace SyntaxGraph

variable {State Output Summary : Type}

namespace Tree

variable {tree : Tree}

/-- No application fails until the queue is empty. -/
def RunsThrough (tree : Tree) (transform : Transform State Output Summary) (state : State) : Prop :=
  ∃ values final, tree.applyAlong transform tree.queueOrder tree.noValues state =
    (.ok values, final)

theorem RootBelow.queue_not_empty (consistent : tree.Consistent) (acyclic : tree.Acyclic)
    {parent : NodeId} (below : tree.RootBelow parent) : tree.queueOrder ≠ [] := by
  obtain ⟨root, rooted, -⟩ := below
  have last := (queue_works_off consistent acyclic).children_first.getLast?_eq_root consistent acyclic
  intro nothing
  rw [nothing, rooted] at last
  cases last

theorem Forest.root_apart (forest : tree.Forest) (consistent : tree.Consistent) :
    tree.RootApart := by
  rintro parent ⟨root, -, recorded, reaches⟩
  have loop : Relation.TransGen tree.Records root root := by
    rcases Relation.reflTransGen_iff_eq_or_transGen.1 reaches with same | strictly
    · rw [same] at recorded
      exact Relation.TransGen.single recorded
    · exact Relation.TransGen.head recorded (climbs_of_reaches consistent strictly)
  exact (forest.grounded root).not_above_itself loop

/-- Where the root leads to the parent that it records, a run of applications that all succeed comes to
the count that fails. -/
theorem RootBelow.overflows (consistent : tree.Consistent) (acyclic : tree.Acyclic)
    {parent : NodeId} (below : tree.RootBelow parent)
    {transform : Transform State Output Summary} {state : State}
    (runs : tree.RunsThrough transform state) :
    tree.processBottomUp transform state = .error (.overflow parent) := by
  obtain ⟨values, final, succeeds⟩ := runs
  have miscounts : tree.queueMiscount? = some (.overflow parent) :=
    ((queue_works_off consistent acyclic).miscount_iff _).2 ⟨parent, below, rfl⟩
  rw [process_bottom_up_eq consistent acyclic, if_neg (below.queue_not_empty consistent acyclic),
    succeeds, miscounts]

theorem overflows_only_at_root (consistent : tree.Consistent) (acyclic : tree.Acyclic)
    {transform : Transform State Output Summary} {state : State} {node : NodeId}
    (overflows : tree.processBottomUp transform state = .error (.overflow node)) :
    tree.RootBelow node ∧ tree.RunsThrough transform state := by
  rw [process_bottom_up_eq consistent acyclic] at overflows
  split at overflows
  · cases overflows
  rcases ran : tree.applyAlong transform tree.queueOrder tree.noValues state with ⟨outcome, final⟩
  rw [ran] at overflows
  cases outcome with
  | error error => cases overflows
  | ok values =>
      cases miscounts : tree.queueMiscount? with
      | none =>
          rw [miscounts] at overflows
          cases finalized : transform.finalize tree values final <;>
            simp [finalized, Except.mapError] at overflows
      | some failure =>
          rw [miscounts] at overflows
          obtain ⟨parent, below, same⟩ :=
            ((queue_works_off consistent acyclic).miscount_iff failure).1 miscounts
          rw [same] at overflows
          cases overflows
          exact ⟨below, values, final, ran⟩

/-- Links without loops let a count that is zero already be counted off exactly if the root records a
parent that it leads to, and no application fails. The count is that parent's. It is the last step
then, since all nodes come after their children and the root comes last. In a forest no count is ever
taken below zero. -/
theorem counts_below_zero_iff (consistent : tree.Consistent) (acyclic : tree.Acyclic)
    (transform : Transform State Output Summary) (state : State) :
    (∀ node, tree.processBottomUp transform state = .error (.overflow node) ↔
      tree.RootBelow node ∧ tree.RunsThrough transform state) ∧
    (tree.ChildrenFirst tree.queueOrder ∧ tree.queueOrder.getLast? = tree.root) ∧
    (tree.Forest → ∀ node, tree.processBottomUp transform state ≠ .error (.overflow node)) := by
  have first := (queue_works_off consistent acyclic).children_first
  refine ⟨fun node => ⟨?_, ?_⟩, ⟨first, first.getLast?_eq_root consistent acyclic⟩, ?_⟩
  · exact overflows_only_at_root consistent acyclic
  · exact fun both => both.1.overflows consistent acyclic both.2
  · intro forest node overflows
    exact forest.root_apart consistent node (overflows_only_at_root consistent acyclic overflows).1

/-- The root is a former child, which its recorded parent never listed. -/
def cutOff : Tree :=
  builtBy [.addNode none "a" "" ⟨0, 0, 1, 0⟩, .addNode (some 0) "b" "" ⟨0, 0, 1, 0⟩, .setRoot 1]

theorem cut_off_counts_above_zero :
    cutOff.Reachable ∧ cutOff.Consistent ∧ cutOff.Acyclic ∧ cutOff.Forest ∧
      cutOff.root = some 1 ∧ cutOff.parent? 1 = some 0 ∧
      ∀ node, cutOff.processBottomUp (VisitPlan.transform ⟨none, false⟩) [] ≠
        .error (.overflow node) := by
  have reachable : cutOff.Reachable := built_by_reachable _
  have consistent := reachable.wellFormed.toConsistent
  have forest : cutOff.Forest := by
    refine (forest_iff_grounded consistent).2 fun node => ?_
    match node with
    | 0 => exact Grounded.top (by decide)
    | 1 => exact Grounded.under (by decide) (Grounded.top (by decide) : cutOff.Grounded 0)
    | _ + 2 => exact Grounded.top rfl
  exact ⟨reachable, consistent, forest.acyclic, forest, by decide, by decide,
    (counts_below_zero_iff consistent forest.acyclic (VisitPlan.transform ⟨none, false⟩) []).2.2
      forest⟩

/-- The root gets the parent that it records as its child. -/
def upsideDown : Tree :=
  builtBy [.addNode none "a" "" ⟨0, 0, 1, 0⟩, .addNode (some 0) "b" "" ⟨0, 0, 1, 0⟩, .setRoot 1,
    .attachChild 1 0]

/-- There is no loop of child links, and yet the root is counted off at its child, which has none. -/
theorem upside_down_counts_below_zero :
    upsideDown.Reachable ∧ upsideDown.Acyclic ∧
      upsideDown.processBottomUp (VisitPlan.transform ⟨none, false⟩) [] = .error (.overflow 0) := by
  have onlyLink : ∀ parent child, child ∈ upsideDown.children parent → parent = 1 ∧ child = 0 := by
    intro parent child listed
    match parent with
    | 0 => exact absurd listed (by decide +revert)
    | 1 =>
        have single : upsideDown.children 1 = [0] := by decide
        rw [single] at listed
        exact ⟨rfl, List.mem_singleton.1 listed⟩
    | _ + 2 => cases listed
  have acyclic : upsideDown.Acyclic := by
    intro node cycle
    obtain ⟨child, listed, back⟩ := Relation.TransGen.head'_iff.1 cycle
    obtain ⟨rfl, rfl⟩ := onlyLink node child listed
    rcases Relation.ReflTransGen.cases_head back with same | ⟨next, further, _⟩
    · cases same
    · cases (onlyLink 0 next further).1
  exact ⟨built_by_reachable _, acyclic, by decide +kernel⟩

end Tree

end SyntaxGraph
