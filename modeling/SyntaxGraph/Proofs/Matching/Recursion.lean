import SyntaxGraph.Proofs.Matching.Bindings

/-!
The recursion of matching without its bound. On consistent, acyclic links the arena has more levels
than any subtree, so a form matches at a node exactly as its child patterns match among the children,
where every nested match is again one without a bound.
-/

set_option autoImplicit false

namespace SyntaxGraph

namespace Tree

variable {tree : Tree}

def matchLevel (tree : Tree) (nested : NodeId → NodeForm → List Captures) (node : NodeId)
    (form : NodeForm) : List Captures :=
  if tree.accepts node form then
    tree.matchSiblings (fun child pattern => pattern.nodeForms.flatMap (nested child)) form.children
        (tree.children node) (tree.seedCaptures node form) ++
      if form.rule = Pattern.descendants then
        (tree.children node).flatMap fun child => nested child form
      else []
  else []

theorem match_form_level (levels : Nat) (node : NodeId) (form : NodeForm) :
    tree.matchForm (levels + 1) node form = tree.matchLevel (tree.matchForm levels) node form := by
  rw [matchForm, matchLevel]
  dsimp only
  by_cases fits : tree.accepts node form = true
  · rw [if_pos fits, if_pos fits]
    by_cases deep : form.rule = Pattern.descendants
    · rw [if_pos deep, if_pos deep]
    · rw [if_neg deep, if_neg deep, List.append_nil]
  · rw [if_neg fits, if_neg fits]

theorem match_siblings_congr {first second : NodeId → Pattern → List Captures}
    (patterns : List Pattern) (siblings : List NodeId)
    (same : ∀ child ∈ siblings, ∀ pattern, first child pattern = second child pattern)
    (captures : Captures) :
    tree.matchSiblings first patterns siblings captures =
      tree.matchSiblings second patterns siblings captures := by
  induction patterns generalizing siblings captures with
  | nil => rfl
  | cons pattern rest induction =>
      have present : ((withLater siblings).flatMap fun position =>
            (first position.1 pattern).flatMap fun bound =>
              tree.matchSiblings first rest position.2 (captures.merge tree bound)) =
          (withLater siblings).flatMap fun position =>
            (second position.1 pattern).flatMap fun bound =>
              tree.matchSiblings second rest position.2 (captures.merge tree bound) := by
        apply List.flatMap_congr
        rintro ⟨child, later⟩ listed
        obtain ⟨here, inside⟩ := mem_with_later listed
        rw [same child here pattern]
        apply List.flatMap_congr
        intro bound _
        exact induction later (fun other behind => same other (inside other behind)) _
      rw [matchSiblings, matchSiblings, induction siblings same captures]
      exact congrArg (fun found => if found.isEmpty && pattern.isOptional then
        tree.matchSiblings second rest siblings captures else found) present

theorem match_level_congr {first second : NodeId → NodeForm → List Captures} {node : NodeId}
    (same : ∀ child ∈ tree.children node, ∀ form, first child form = second child form)
    (form : NodeForm) : tree.matchLevel first node form = tree.matchLevel second node form := by
  have siblings : tree.matchSiblings
        (fun child pattern => pattern.nodeForms.flatMap (first child)) form.children
        (tree.children node) (tree.seedCaptures node form) =
      tree.matchSiblings (fun child pattern => pattern.nodeForms.flatMap (second child))
        form.children (tree.children node) (tree.seedCaptures node form) := by
    apply match_siblings_congr
    intro child listed pattern
    apply List.flatMap_congr
    intro nested _
    exact same child listed nested
  have deeper : ((tree.children node).flatMap fun child => first child form) =
      (tree.children node).flatMap fun child => second child form := by
    apply List.flatMap_congr
    intro child listed
    exact same child listed form
  rw [matchLevel, matchLevel, siblings, deeper]

theorem match_form_stable (levels : Nat) (node : NodeId) (form : NodeForm)
    (fits : tree.FitsWithin levels node) :
    tree.matchForm (levels + 1) node form = tree.matchForm levels node form := by
  induction levels generalizing node form with
  | zero => exact absurd fits id
  | succ levels induction =>
      rw [match_form_level, match_form_level]
      apply match_level_congr
      intro child listed nested
      exact induction child nested (fits child listed)

/-- A form matches at a node as its child patterns match among all its children, from the first one
on; one for every deeper level then also matches as it does at each child. -/
theorem match_form_unfold (consistent : tree.Consistent) (acyclic : tree.Acyclic) {node : NodeId}
    (known : tree.contains node = true) (form : NodeForm) :
    tree.matchForm tree.size node form =
      if tree.accepts node form then
        tree.matchChildren (tree.children node) form.children (tree.seedCaptures node form) 0 ++
          if form.rule = Pattern.descendants then
            (tree.children node).flatMap fun child => tree.matchForm tree.size child form
          else []
      else [] := by
  have stable := match_form_stable tree.size node form (fits_within_size consistent acyclic known)
  rw [← stable, match_form_level]
  rfl

end Tree

end SyntaxGraph
