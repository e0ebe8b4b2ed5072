import SyntaxGraph.Proofs.Tree.Forest

/-!
What a refused edit leaves. All checks come before all writes, so that a refusal leaves the tree as it
was. Only a node that is added and listed by one call is written before it is checked; that check is
always passed, since no list of children holds a number that was not issued yet.
-/

set_option autoImplicit false

namespace SyntaxGraph

def TreeError.TrueOf (tree : Tree) : TreeError → Prop
  | .indexOutOfRange node index count =>
      tree.contains node = true ∧ count = (tree.children node).length ∧ count ≤ index
  | .unknownNode node => ¬tree.contains node = true
  | .alreadyAttached child parent => child ∈ tree.children parent

/-- The nodes that a call names are the tree's own, the child to be replaced exists, and a node that
is to be listed is listed nowhere, unless it is its own replacement. -/
def EditCall.Fits (tree : Tree) : EditCall → Prop
  | .addNode parent _ _ _ => ∀ lister ∈ parent, tree.contains lister = true
  | .attachChild parent child =>
      tree.contains parent = true ∧ tree.contains child = true ∧ tree.Unlisted child
  | .pushChild parent _ _ _ => tree.contains parent = true
  | .replaceChild parent index replacement =>
      tree.contains replacement = true ∧ ∃ old, (tree.children parent)[index]? = some old ∧
        (old = replacement ∨ tree.Unlisted replacement)
  | .deepCopy id => tree.contains id = true
  | .setRoot id => tree.contains id = true

namespace TreeEdit

variable {Result : Type} {tree : Tree}

/-- The edit goes through exactly if something holds; otherwise the tree stays as it is, and the cause
of the refusal is true of it. -/
def AcceptsIff (edit : TreeEdit Result) (tree : Tree) (fits : Prop) : Prop :=
  fits ∧ (∃ result after, edit.run.run tree = (.ok result, after)) ∨
    ¬fits ∧ ∃ cause : TreeError, cause.TrueOf tree ∧ edit.run.run tree = (.error cause, tree)

theorem AcceptsIff.congr {edit : TreeEdit Result} {fits other : Prop}
    (accepts : edit.AcceptsIff tree fits) (same : fits ↔ other) : edit.AcceptsIff tree other := by
  rwa [← same]

theorem accepts_of_ran {edit : TreeEdit Result} {result : Result} {after : Tree}
    (ran : edit.run.run tree = (.ok result, after)) : edit.AcceptsIff tree True :=
  Or.inl ⟨trivial, result, after, ran⟩

theorem AcceptsIff.after_refusal {edit : TreeEdit Result} {fits : Prop}
    (accepts : edit.AcceptsIff tree fits) {cause : TreeError} {after : Tree}
    (ran : edit.run.run tree = (.error cause, after)) : after = tree := by
  rcases accepts with ⟨_, result, other, went⟩ | ⟨_, other, _, refused⟩
  · rw [went] at ran
    cases ran
  · rw [refused] at ran
    exact (congrArg Prod.snd ran).symm

-- Checks

theorem require_node_then (id : NodeId) {next : TreeEdit Result} {fits : Prop}
    (accepts : tree.contains id = true → next.AcceptsIff tree fits) :
    (requireNode id >>= fun _ => next).AcceptsIff tree (tree.contains id = true ∧ fits) := by
  by_cases known : tree.contains id = true
  · have ran : (requireNode id >>= fun _ => next).run.run tree = next.run.run tree := by
      rw [run_bind, require_node_passes known]
    simpa only [AcceptsIff, ran, known, true_and] using accepts known
  · refine Or.inr ⟨fun both => known both.1, .unknownNode id, known, ?_⟩
    rw [run_bind, require_node_refuses known]

theorem require_detached_then (child : NodeId) {next : TreeEdit Result} {fits : Prop}
    (accepts : tree.Detached child → next.AcceptsIff tree fits) :
    (requireDetached child >>= fun _ => next).AcceptsIff tree (tree.Detached child ∧ fits) := by
  by_cases listed : ∃ parent, tree.parent? child = some parent ∧ child ∈ tree.children parent
  · obtain ⟨parent, recorded, member⟩ := listed
    have refused : (requireDetached child).run.run tree =
        (.error (.alreadyAttached child parent), tree) := by
      have there : (tree.children parent).contains child = true := by simpa using member
      simp only [requireDetached, run_bind, run_get, recorded, if_pos there]
      rfl
    refine Or.inr ⟨fun both => both.1 parent recorded member, .alreadyAttached child parent, member, ?_⟩
    rw [run_bind, refused]
  · have detached : tree.Detached child := fun parent recorded member =>
      listed ⟨parent, recorded, member⟩
    have ran : (requireDetached child >>= fun _ => next).run.run tree = next.run.run tree := by
      rw [run_bind, require_detached_passes detached]
    simpa only [AcceptsIff, ran, detached, true_and] using accepts detached

theorem child_of_error {parent : NodeId} {index : Nat} {cause : TreeError}
    (refused : tree.child parent index = .error cause) :
    cause.TrueOf tree ∧ (tree.children parent)[index]? = none := by
  unfold Tree.child at refused
  cases issued : tree.node? parent with
  | none =>
      rw [issued] at refused
      cases refused
      have unknown : ¬tree.contains parent = true := by
        intro known
        obtain ⟨node, found⟩ := Tree.node_of_known known
        rw [issued] at found
        cases found
      exact ⟨unknown, by simp [Tree.children, issued]⟩
  | some node =>
      rw [issued] at refused
      dsimp only at refused
      have children : tree.children parent = node.children := by simp [Tree.children, issued]
      cases listed : node.children[index]? with
      | some child =>
          rw [listed] at refused
          cases refused
      | none =>
          rw [listed] at refused
          cases refused
          rw [children]
          exact ⟨⟨Tree.known_of_found issued, by rw [children], List.getElem?_eq_none_iff.1 listed⟩,
            listed⟩

-- Edits

theorem attach_child_accepts (parent child : NodeId) :
    (attachChild parent child).AcceptsIff tree
      (tree.contains parent = true ∧ tree.contains child = true ∧ tree.Detached child) := by
  unfold attachChild
  apply require_node_then
  intro _
  apply require_node_then
  intro _
  rw [← and_true (tree.Detached child)]
  apply require_detached_then
  intro _
  exact accepts_of_ran rfl

theorem replace_child_accepts (parent : NodeId) (index : Nat) (replacement : NodeId) :
    (replaceChild parent index replacement).AcceptsIff tree
      (tree.contains replacement = true ∧ ∃ old, (tree.children parent)[index]? = some old ∧
        (old = replacement ∨ tree.Detached replacement)) := by
  unfold replaceChild
  apply require_node_then
  intro _
  rw [AcceptsIff, run_bind, run_get]
  dsimp only
  rw [run_bind, run_child]
  cases found : tree.child parent index with
  | error cause =>
      obtain ⟨holds, absent⟩ := child_of_error found
      exact Or.inr ⟨by simp [absent], cause, holds, rfl⟩
  | ok old =>
      have there := Tree.child_of_ok found
      dsimp only
      by_cases same : old = replacement
      · rw [if_pos same]
        exact Or.inl ⟨⟨old, there, Or.inl same⟩, old, tree, rfl⟩
      · rw [if_neg same]
        have accepts : (requireDetached replacement >>= fun _ => do
            let tree ← get
            let relisted := tree.setChildren parent ((tree.children parent).set index replacement)
            set ((relisted.setParent old none).setParent replacement (some parent))
            return old).AcceptsIff tree (tree.Detached replacement ∧ True) :=
          require_detached_then replacement fun _ => accepts_of_ran rfl
        refine accepts.congr ?_
        simp [there, same]

theorem add_node_accepts (parent : Option NodeId) (rule text : String) (span : Span) :
    (addNode parent rule text span).AcceptsIff tree
      (∀ lister ∈ parent, tree.contains lister = true) := by
  cases parent with
  | none =>
      have accepts : (addNode none rule text span).AcceptsIff tree True := by
        obtain ⟨nodes, root⟩ := tree
        cases root with
        | none => exact accepts_of_ran rfl
        | some root => exact accepts_of_ran rfl
      exact accepts.congr (by simp)
  | some parent =>
      unfold addNode
      have accepts : (requireNode parent >>= fun _ =>
          allocate (some parent) rule text span).AcceptsIff tree
            (tree.contains parent = true ∧ True) :=
        require_node_then parent fun _ => accepts_of_ran rfl
      exact accepts.congr (by simp)

theorem set_root_accepts (id : NodeId) :
    (setRoot id).AcceptsIff tree (tree.contains id = true) := by
  have accepts : (setRoot id).AcceptsIff tree (tree.contains id = true ∧ True) :=
    require_node_then id fun _ => accepts_of_ran rfl
  exact accepts.congr (by simp)

theorem deep_copy_accepts (id : NodeId) :
    (deepCopy id).AcceptsIff tree (tree.contains id = true) := by
  rw [← and_true (tree.contains id = true)]
  unfold deepCopy
  apply require_node_then
  intro known
  obtain ⟨node, issued⟩ := Tree.node_of_known known
  rw [AcceptsIff, run_bind, run_get]
  dsimp only
  rw [issued]
  exact accepts_of_ran rfl

theorem push_child_accepts (wellFormed : tree.WellFormed) (parent : NodeId) (rule text : String)
    (span : Span) :
    (pushChild parent rule text span).AcceptsIff tree (tree.contains parent = true) := by
  by_cases known : tree.contains parent = true
  · exact (accepts_of_ran (run_push_child known rule text span wellFormed)).congr (by simp [known])
  · exact Or.inr ⟨known, .unknownNode parent, known, push_child_refuses known rule text span⟩

-- Calls

def refusal? (edit : TreeEdit Result) (tree : Tree) : Option TreeError :=
  match (edit.run.run tree).1 with
  | .ok _ => none
  | .error cause => some cause

theorem AcceptsIff.cases {edit : TreeEdit Result} {fits : Prop}
    (accepts : edit.AcceptsIff tree fits) :
    fits ∧ edit.refusal? tree = none ∨
      ¬fits ∧ ∃ cause : TreeError, edit.refusal? tree = some cause ∧ cause.TrueOf tree ∧
        (edit.run.run tree).2 = tree := by
  rcases accepts with ⟨holds, result, after, ran⟩ | ⟨fails, cause, true_of_tree, ran⟩
  · exact Or.inl ⟨holds, by rw [refusal?, ran]⟩
  · exact Or.inr ⟨fails, cause, by rw [refusal?, ran], true_of_tree, by rw [ran]⟩

end TreeEdit

def EditCall.refusal? (tree : Tree) : EditCall → Option TreeError
  | .addNode parent rule text span => (TreeEdit.addNode parent rule text span).refusal? tree
  | .attachChild parent child => (TreeEdit.attachChild parent child).refusal? tree
  | .pushChild parent rule text span => (TreeEdit.pushChild parent rule text span).refusal? tree
  | .replaceChild parent index replacement =>
      (TreeEdit.replaceChild parent index replacement).refusal? tree
  | .deepCopy id => (TreeEdit.deepCopy id).refusal? tree
  | .setRoot id => (TreeEdit.setRoot id).refusal? tree

namespace Tree

variable {tree : Tree}

theorem WellFormed.detached_iff_unlisted (wellFormed : tree.WellFormed) {node : NodeId} :
    tree.Detached node ↔ tree.Unlisted node :=
  ⟨wellFormed.unlisted, fun unlisted parent _ => unlisted parent⟩

theorem WellFormed.call_cases (wellFormed : tree.WellFormed) (call : EditCall) :
    call.Fits tree ∧ call.refusal? tree = none ∨
      ¬call.Fits tree ∧ ∃ cause : TreeError, call.refusal? tree = some cause ∧ cause.TrueOf tree ∧
        call.leaves tree = tree := by
  cases call with
  | addNode parent rule text span => exact (TreeEdit.add_node_accepts parent rule text span).cases
  | attachChild parent child =>
      have accepts := @TreeEdit.attach_child_accepts tree parent child
      rw [wellFormed.detached_iff_unlisted] at accepts
      exact accepts.cases
  | pushChild parent rule text span =>
      exact (TreeEdit.push_child_accepts wellFormed parent rule text span).cases
  | replaceChild parent index replacement =>
      have accepts := @TreeEdit.replace_child_accepts tree parent index replacement
      simp only [wellFormed.detached_iff_unlisted] at accepts
      exact accepts.cases
  | deepCopy id => exact (TreeEdit.deep_copy_accepts id).cases
  | setRoot id => exact (TreeEdit.set_root_accepts id).cases

/-- A call that is refused leaves the tree as it was, and what it gives as the cause is true of that
tree; it is refused exactly if it does not fit. Once a node has been added under a parent, listing it
there is not refused any more, so that a push never leaves a node behind that nobody lists. -/
theorem Reachable.refusals_change_nothing (reachable : tree.Reachable) :
    (∀ call cause, EditCall.refusal? tree call = some cause →
      call.leaves tree = tree ∧ cause.TrueOf tree) ∧
    (∀ call, EditCall.refusal? tree call = none ↔ call.Fits tree) ∧
    ∀ parent rule text span id grown,
      (TreeEdit.addNode (some parent) rule text span).run.run tree = (.ok id, grown) →
        ∃ listed, (TreeEdit.attachChild parent id).run.run grown = (.ok (), listed) ∧
          (TreeEdit.pushChild parent rule text span).run.run tree = (.ok id, listed) ∧
          listed.size = tree.size + 1 ∧ listed.parent? id = some parent ∧
          listed.children parent = tree.children parent ++ [id] := by
  have wellFormed := reachable.wellFormed
  refine ⟨?_, ?_, ?_⟩
  · intro call cause refused
    rcases wellFormed.call_cases call with ⟨_, accepted⟩ | ⟨_, other, raised, holds, unchanged⟩
    · rw [accepted] at refused
      cases refused
    · rw [raised] at refused
      cases refused
      exact ⟨unchanged, holds⟩
  · intro call
    rcases wellFormed.call_cases call with ⟨fits, accepted⟩ | ⟨misfit, _, raised, _⟩
    · exact iff_of_true accepted fits
    · refine iff_of_false ?_ misfit
      rw [raised]
      exact nofun
  · intro parent rule text span id grown added
    by_cases known : tree.contains parent = true
    · rw [TreeEdit.run_add_under known] at added
      cases added
      let pushed := tree.push (some parent) rule text span
      have attached := TreeEdit.run_attach_fresh known rule text span wellFormed
      have ran := TreeEdit.run_push_child known rule text span wellFormed
      rw [← push_set_children known] at ran
      have parentKnown : pushed.contains parent = true :=
        contains_mono (by rw [size_push]; exact Nat.le_succ _) known
      refine ⟨_, attached, ran, ?_, ?_, ?_⟩
      · rw [size_set_children, size_push]
      · rw [parent_set_children, parent_push, if_pos rfl]
      · rw [children_set_children parentKnown, if_pos rfl]
    · rw [TreeEdit.addNode, run_bind, TreeEdit.require_node_refuses known] at added
      cases added

theorem rearranged_refuses :
    let span : Span := ⟨0, 0, 1, 0⟩
    rearranged.Reachable ∧
      (EditCall.refusal? rearranged (.replaceChild 0 1 3) = some (.alreadyAttached 3 2) ∧
        (EditCall.replaceChild 0 1 3).leaves rearranged = rearranged ∧
        3 ∈ rearranged.children 2) ∧
      (EditCall.refusal? rearranged (.pushChild 6 "name" "y" span) = some (.unknownNode 6) ∧
        (EditCall.pushChild 6 "name" "y" span).leaves rearranged = rearranged) ∧
      ∃ grown listed,
        (TreeEdit.addNode (some 5) "name" "y" span).run.run rearranged = (.ok 6, grown) ∧
        (TreeEdit.attachChild 5 6).run.run grown = (.ok (), listed) ∧
        listed.parent? 6 = some 5 ∧ listed.children 5 = [6] := by
  intro span
  have reachable : rearranged.Reachable := Reachable.empty.afterCalls _
  obtain ⟨unchanged, _, pushes⟩ := reachable.refusals_change_nothing
  have attached : EditCall.refusal? rearranged (.replaceChild 0 1 3) =
      some (.alreadyAttached 3 2) := by decide +kernel
  have unknown : EditCall.refusal? rearranged (.pushChild 6 "name" "y" span) =
      some (.unknownNode 6) := by decide +kernel
  obtain ⟨same, listed⟩ := unchanged _ _ attached
  have added : (TreeEdit.addNode (some 5) "name" "y" span).run.run rearranged =
      (.ok 6, rearranged.push (some 5) "name" "y" span) := by
    have known : rearranged.contains 5 = true := by decide +kernel
    have size : rearranged.size = 6 := by decide +kernel
    rw [TreeEdit.run_add_under known, size]
  obtain ⟨final, went, _, _, recorded, children⟩ := pushes _ _ _ _ _ _ added
  have childless : rearranged.children 5 = [] := by decide +kernel
  rw [childless] at children
  exact ⟨reachable, ⟨attached, same, listed⟩, ⟨unknown, (unchanged _ _ unknown).1⟩, _, final, added,
    went, recorded, children⟩

end Tree

end SyntaxGraph
