import Mathlib.Data.List.Induction
import SyntaxGraph.Proofs.Matching.Recursion
import SyntaxGraph.Proofs.Tree.Copy
import SyntaxGraph.Proofs.Tree.Forest
import SyntaxGraph.Proofs.Tree.Postorder

/-!
Walks that end. In a forest no bound cuts a walk off: with more room it takes the same steps. Edits
build forests as long as none of them hangs a node below itself; from then on a walk may go round and
round.
-/

set_option autoImplicit false

namespace SyntaxGraph

namespace Tree

variable {tree : Tree}

/-- The walks come to their ends within their bounds, so that any larger bound leads to the same
end. The children-first walk yields nothing on its way down; that it yields the root shows its end. -/
structure WalksEnd (tree : Tree) : Prop where
  preorder_ends : ∀ bound, tree.size ≤ bound →
    tree.preorderStack bound tree.root.toList = tree.preorder
  topological_ends : ∀ bound, 2 * tree.size ≤ bound →
    tree.postorderStack bound (tree.root.toList.map (·, false)) = tree.topologicalOrder
  topological_last : tree.topologicalOrder.getLast? = tree.root
  ancestors_end : ∀ node bound, tree.size ≤ bound →
    tree.ancestorsWithin bound node = tree.ancestors node
  copies_end : ∀ id node, tree.node? id = some node → ∀ bound, tree.size ≤ bound →
    (tree.push none node.rule node.text node.span).copyPending bound [(id, tree.size)] =
      (tree.push none node.rule node.text node.span).copyPending tree.size [(id, tree.size)]
  matches_end : ∀ node, tree.contains node = true → ∀ form bound, tree.size ≤ bound →
    tree.matchForm bound node form = tree.matchForm tree.size node form

-- Lines of recorded parents

theorem climbs_of_mem_ancestors_within (bound : Nat) (node : NodeId) :
    ∀ passed ∈ tree.ancestorsWithin bound node, Relation.TransGen tree.Records node passed := by
  induction bound generalizing node with
  | zero => simp [ancestorsWithin]
  | succ bound induction =>
      intro passed member
      rw [ancestorsWithin] at member
      cases recorded : tree.parent? node with
      | none => simp [recorded] at member
      | some parent =>
          simp only [recorded, List.mem_cons] at member
          rcases member with same | above
          · rw [same]
            exact Relation.TransGen.single recorded
          · exact Relation.TransGen.head recorded (induction parent passed above)

theorem line_nodup (grounded : ∀ node, tree.Grounded node) (bound : Nat) (node : NodeId) :
    (node :: tree.ancestorsWithin bound node).Nodup := by
  induction bound generalizing node with
  | zero => simp [ancestorsWithin]
  | succ bound induction =>
      refine List.nodup_cons.2 ⟨?_, ?_⟩
      · intro member
        exact (grounded node).not_above_itself
          (climbs_of_mem_ancestors_within (bound + 1) node node member)
      · rw [ancestorsWithin]
        cases tree.parent? node with
        | none => exact List.nodup_nil
        | some parent => exact induction parent

theorem Numbered.known_of_mem_ancestors (numbered : tree.Numbered) (bound : Nat) (node : NodeId) :
    ∀ passed ∈ tree.ancestorsWithin bound node, tree.contains passed = true := by
  intro passed member
  obtain ⟨last, _, recorded⟩ :=
    Relation.TransGen.tail'_iff.1 (climbs_of_mem_ancestors_within bound node passed member)
  exact numbered.parent_known last passed recorded

/-- A line that stays below its bound has ended. -/
theorem ancestors_within_stable {bound more : Nat} {node : NodeId}
    (ended : (tree.ancestorsWithin bound node).length < bound) (larger : bound ≤ more) :
    tree.ancestorsWithin more node = tree.ancestorsWithin bound node := by
  induction bound generalizing more node with
  | zero => simp at ended
  | succ bound induction =>
      obtain ⟨more, rfl⟩ : ∃ rounds, more = rounds + 1 := ⟨more - 1, by omega⟩
      rw [ancestorsWithin] at ended
      rw [ancestorsWithin, ancestorsWithin]
      cases recorded : tree.parent? node with
      | none => rfl
      | some parent =>
          simp only [recorded, List.length_cons, Nat.add_lt_add_iff_right] at ended
          dsimp only
          rw [induction ended (by omega)]

theorem Numbered.ancestors_end (numbered : tree.Numbered) (grounded : ∀ node, tree.Grounded node)
    (node : NodeId) {bound : Nat} (enough : tree.size ≤ bound) :
    tree.ancestorsWithin bound node = tree.ancestors node := by
  by_cases known : tree.contains node = true
  · apply ancestors_within_stable _ enough
    have inside : node :: tree.ancestorsWithin tree.size node ⊆ List.range tree.size := by
      intro passed member
      have passedKnown : tree.contains passed = true := by
        rcases List.mem_cons.1 member with same | above
        · rw [same]
          exact known
        · exact numbered.known_of_mem_ancestors tree.size node passed above
      simpa [contains] using passedKnown
    have short := List.Nodup.length_le_of_subset (line_nodup grounded tree.size node) inside
    simp only [List.length_cons, List.length_range] at short
    omega
  · have parentless : tree.parent? node = none := by
      rw [parent?, node_of_unknown known]
      rfl
    have nothing : ∀ rounds, tree.ancestorsWithin rounds node = [] := by
      intro rounds
      cases rounds with
      | zero => rfl
      | succ rounds => rw [ancestorsWithin, parentless]
    rw [ancestors, nothing, nothing]

-- Walks down

theorem preorder_ends (consistent : tree.Consistent) (acyclic : tree.Acyclic) {bound : Nat}
    (enough : tree.size ≤ bound) :
    tree.preorderStack bound tree.root.toList = tree.preorder := by
  cases rooted : tree.root with
  | none =>
      rw [preorder_of_rootless rooted]
      cases bound <;> rfl
  | some root =>
      have known := consistent.root_known root rooted
      have short := subtree_length_le consistent acyclic known
      rw [preorder_eq_subtree consistent acyclic rooted,
        preorder_stack_subtrees consistent acyclic]
      · simp
      · simpa using known
      · simpa using Nat.le_trans short enough

theorem topological_ends (consistent : tree.Consistent) (acyclic : tree.Acyclic) {bound : Nat}
    (enough : 2 * tree.size ≤ bound) :
    tree.postorderStack bound (tree.root.toList.map (·, false)) = tree.topologicalOrder := by
  cases rooted : tree.root with
  | none =>
      rw [topological_order_of_rootless rooted]
      cases bound <;> rfl
  | some root =>
      rw [topological_order_eq consistent acyclic rooted]
      exact postorder_stack_root consistent acyclic rooted enough

theorem match_form_ends (consistent : tree.Consistent) (acyclic : tree.Acyclic) {node : NodeId}
    (known : tree.contains node = true) (form : NodeForm) {bound : Nat}
    (enough : tree.size ≤ bound) :
    tree.matchForm bound node form = tree.matchForm tree.size node form := by
  have fits := fits_within_size consistent acyclic known
  induction enough with
  | refl => rfl
  | step larger induction => rw [match_form_stable _ node form (fits.mono larger), induction]

theorem Forest.walks_end (forest : tree.Forest) (wellFormed : tree.WellFormed) : tree.WalksEnd where
  preorder_ends _ enough := preorder_ends wellFormed.toConsistent forest.acyclic enough
  topological_ends _ enough := topological_ends wellFormed.toConsistent forest.acyclic enough
  topological_last := last_of_topological_order wellFormed.toConsistent forest.acyclic
  ancestors_end node _ enough :=
    wellFormed.toNumbered.ancestors_end forest.grounded node enough
  copies_end id node issued _ enough := by
    have known := known_of_found issued
    exact copy_pending_root_stable wellFormed.toConsistent forest.acyclic known node.rule node.text
      node.span enough
  matches_end _ known form _ enough :=
    match_form_ends wellFormed.toConsistent forest.acyclic known form enough

-- Histories

def builtBy (calls : List EditCall) : Tree := calls.foldl EditCall.leaves .empty

theorem built_by_reachable (calls : List EditCall) : (builtBy calls).Reachable :=
  Reachable.empty.afterCalls calls

theorem empty_forest : Tree.empty.Forest :=
  (forest_iff_grounded empty_well_formed.toConsistent).2 fun _ => Grounded.top rfl

theorem built_by_append (calls : List EditCall) (call : EditCall) :
    builtBy (calls ++ [call]) = call.leaves (builtBy calls) := by
  rw [builtBy, List.foldl_append]
  rfl

theorem forests_iff_nothing_hangs (calls : List EditCall) :
    (∀ earlier, earlier <+: calls → (builtBy earlier).Forest) ↔
      ∀ earlier call, earlier ++ [call] <+: calls → ¬call.HangsBelowItself (builtBy earlier) := by
  constructor
  · intro forests earlier call starts
    have before := forests earlier ((List.prefix_append earlier [call]).trans starts)
    have after := forests (earlier ++ [call]) starts
    rw [built_by_append] at after
    exact (call.leaves_forest_iff (built_by_reachable earlier).wellFormed before).1 after
  · intro nothing earlier starts
    induction earlier using List.reverseRecOn with
    | nil => exact empty_forest
    | append_singleton earlier call induction =>
        have before := induction ((List.prefix_append earlier [call]).trans starts)
        rw [built_by_append]
        exact (call.leaves_forest_iff (built_by_reachable earlier).wellFormed before).2
          (nothing earlier call starts)

/-- Calls that start from nothing lead through forests only, exactly if none of them hangs a node
below itself, and in every forest that they build all walks end. -/
theorem calls_build_forests (calls : List EditCall) :
    ((∀ earlier, earlier <+: calls → (builtBy earlier).Forest) ↔
      ∀ earlier call, earlier ++ [call] <+: calls →
        ¬call.HangsBelowItself (builtBy earlier)) ∧
    ((builtBy calls).Forest → (builtBy calls).WalksEnd) :=
  ⟨forests_iff_nothing_hangs calls,
    fun forest => forest.walks_end (built_by_reachable calls).wellFormed⟩

def ringed : Tree :=
  builtBy [.addNode none "a" "" ⟨0, 0, 1, 0⟩, .pushChild 0 "b" "" ⟨0, 0, 1, 0⟩, .attachChild 1 0]

/-- Each of the two nodes lies below itself, no line of parents ends, and a walk uses up whatever
room it has. -/
theorem root_hangs_below_its_child :
    ringed.Reachable ∧ Relation.TransGen ringed.IsChild 0 0 ∧ ¬ringed.Grounded 0 ∧
      ringed.root = some 0 ∧
      ∀ bound, (ringed.preorderStack bound [0]).length = bound ∧
        (ringed.ancestorsWithin bound 0).length = bound := by
  have down : ringed.children 0 = [1] ∧ ringed.children 1 = [0] := by decide
  have up : ringed.parent? 0 = some 1 ∧ ringed.parent? 1 = some 0 := by decide
  have cycle : Relation.TransGen ringed.IsChild 0 0 := by
    refine Relation.TransGen.tail (Relation.TransGen.single (b := 1) ?_) ?_
    · simp [IsChild, down]
    · simp [IsChild, down]
  have walks : ∀ bound, ∀ node, node = 0 ∨ node = 1 →
      (ringed.preorderStack bound [node]).length = bound ∧
        (ringed.ancestorsWithin bound node).length = bound := by
    intro bound
    induction bound with
    | zero => exact fun _ _ => ⟨rfl, rfl⟩
    | succ bound induction =>
        rintro node (rfl | rfl)
        · simp [preorderStack, ancestorsWithin, down, up, induction]
        · simp [preorderStack, ancestorsWithin, down, up, induction]
  refine ⟨built_by_reachable _, cycle, ?_, by decide, fun bound => walks bound 0 (Or.inl rfl)⟩
  intro ends
  exact ends.not_above_itself
    (climbs_of_reaches (built_by_reachable _).wellFormed.toConsistent cycle)

end Tree

end SyntaxGraph
