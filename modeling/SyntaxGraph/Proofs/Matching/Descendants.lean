import SyntaxGraph.Proofs.Matching.Recursion
import SyntaxGraph.Proofs.Tree.Walk

/-!
Patterns that look at every deeper level. Such a pattern matches wherever the same pattern for a
single level matches, at the nodes of the subtree in pre-order. A node with a forbidden child is left
out together with everything below it, so what counts is the whole way down to a node.
-/

set_option autoImplicit false

namespace SyntaxGraph

theorem flatMap_of_only {Item Result : Type} {items : List Item} {item : Item}
    {contribution : Item → List Result} (distinct : items.Nodup) (listed : item ∈ items)
    (nothingElse : ∀ other ∈ items, other ≠ item → contribution other = []) :
    items.flatMap contribution = contribution item := by
  obtain ⟨before, after, split⟩ := List.append_of_mem listed
  subst split
  rw [List.nodup_middle, List.nodup_cons, List.mem_append, not_or] at distinct
  have nothingBefore : before.flatMap contribution = [] := by
    apply List.flatMap_eq_nil_iff.2
    intro other member
    exact nothingElse other (by simp [member]) fun same => distinct.1.1 (same ▸ member)
  have nothingAfter : after.flatMap contribution = [] := by
    apply List.flatMap_eq_nil_iff.2
    intro other member
    exact nothingElse other (by simp [member]) fun same => distinct.1.2 (same ▸ member)
  rw [List.flatMap_append, List.flatMap_cons, nothingBefore, nothingAfter]
  simp

namespace Tree

def spares (tree : Tree) (forbidden : List String) (node : NodeId) : Bool :=
  (tree.children node).all fun child => !forbidden.contains (tree.rule child)

/-- The nodes on the way down from one node to another one, both of them included. -/
def wayDown (tree : Tree) (top bottom : NodeId) : List NodeId :=
  (tree.subtree top).filter fun passed => (tree.subtree passed).contains bottom

variable {tree : Tree}

section WayDown

variable (consistent : tree.Consistent) (acyclic : tree.Acyclic)
include consistent acyclic

theorem mem_way_down_iff {top bottom passed : NodeId} (known : tree.contains top = true) :
    passed ∈ tree.wayDown top bottom ↔
      Relation.ReflTransGen tree.IsChild top passed ∧
        Relation.ReflTransGen tree.IsChild passed bottom := by
  rw [wayDown, List.mem_filter, List.contains_iff_mem, mem_subtree_iff consistent acyclic known]
  constructor
  · rintro ⟨fromTop, below⟩
    exact ⟨fromTop, reaches_of_mem_subtree_within tree.size passed bottom below⟩
  · rintro ⟨fromTop, toBottom⟩
    have passedKnown := consistent.known_of_reaches known fromTop
    exact ⟨fromTop, (mem_subtree_iff consistent acyclic passedKnown).2 toBottom⟩

theorem way_down_itself {node : NodeId} (known : tree.contains node = true) :
    tree.wayDown node node = [node] := by
  have nobodyElse : ((tree.children node).flatMap tree.subtree).filter
      (fun passed => (tree.subtree passed).contains node) = [] := by
    apply List.filter_eq_nil_iff.2
    intro passed member back
    obtain ⟨child, listed, below⟩ := List.mem_flatMap.1 member
    have fromChild := reaches_of_mem_subtree_within tree.size child passed below
    have toNode := reaches_of_mem_subtree_within tree.size passed node (List.contains_iff_mem.1 back)
    exact acyclic node (Relation.TransGen.head' listed (fromChild.trans toNode))
  have here : (tree.subtree node).contains node = true := by
    rw [List.contains_iff_mem, mem_subtree_iff consistent acyclic known]
  rw [wayDown, subtree_unfold consistent acyclic known, List.filter_cons, if_pos here, nobodyElse]

/-- The other children of the node do not lead there. -/
theorem way_down_through {node child bottom : NodeId} (listed : child ∈ tree.children node)
    (below : bottom ∈ tree.subtree child) :
    tree.wayDown node bottom = node :: tree.wayDown child bottom := by
  have known := known_of_listing listed
  have toBottom := reaches_of_mem_subtree_within tree.size child bottom below
  have here : (tree.subtree node).contains bottom = true := by
    rw [List.contains_iff_mem, mem_subtree_iff consistent acyclic known]
    exact Relation.ReflTransGen.head listed toBottom
  have elsewhere : ∀ other ∈ tree.children node, other ≠ child → tree.wayDown other bottom = [] := by
    intro other otherListed different
    apply List.eq_nil_iff_forall_not_mem.2
    intro passed member
    have way := (mem_way_down_iff consistent acyclic (consistent.child_known otherListed)).1 member
    exact siblings_disjoint consistent acyclic listed otherListed different.symm toBottom
      (way.1.trans way.2)
  have alone : (tree.children node).flatMap (tree.wayDown · bottom) = tree.wayDown child bottom :=
    flatMap_of_only (consistent.children_nodup node) listed elsewhere
  rw [wayDown, subtree_unfold consistent acyclic known, List.filter_cons, if_pos here,
    List.filter_flatMap]
  exact congrArg (node :: ·) alone

theorem Descent.way_down {top bottom : NodeId} {above : List NodeId}
    (known : tree.contains top = true) (descent : tree.Descent top above bottom) :
    tree.wayDown top bottom = above ++ [bottom] := by
  induction above generalizing top with
  | nil =>
      rcases descent.from_top with ⟨_, same⟩ | ⟨_, _, _, split, _⟩
      · rw [same, way_down_itself consistent acyclic known]
        rfl
      · cases split
  | cons first rest induction =>
      rcases descent.from_top with ⟨split, _⟩ | ⟨child, listed, below, split, deeper⟩
      · cases split
      · cases split
        have childKnown := consistent.child_known listed
        have reached := (mem_subtree_iff consistent acyclic childKnown).2 deeper.reaches
        rw [way_down_through consistent acyclic listed reached, induction childKnown deeper]
        rfl

variable {forbidden : List String}

theorem clear_through {node child bottom : NodeId}
    (spared : tree.spares forbidden node = true) (listed : child ∈ tree.children node)
    (below : bottom ∈ tree.subtree child) :
    (tree.wayDown node bottom).all (tree.spares forbidden) =
      (tree.wayDown child bottom).all (tree.spares forbidden) := by
  rw [way_down_through consistent acyclic listed below, List.all_cons, spared, Bool.true_and]

theorem nowhere_clear {node : NodeId} (known : tree.contains node = true)
    (blocked : ¬tree.spares forbidden node = true) :
    (tree.subtree node).filter (fun found =>
      (tree.wayDown node found).all (tree.spares forbidden)) = [] := by
  apply List.filter_eq_nil_iff.2
  intro found member clear
  have below := (mem_subtree_iff consistent acyclic known).1 member
  have passed : node ∈ tree.wayDown node found :=
    (mem_way_down_iff consistent acyclic known).2 ⟨Relation.ReflTransGen.refl, below⟩
  exact blocked (List.all_eq_true.1 clear node passed)

end WayDown

-- Matching

theorem accepts_eq_spares {node : NodeId} {form : NodeForm}
    (anyRule : form.rule = Pattern.descendants ∨ form.rule = Pattern.wildcard) :
    tree.accepts node form = tree.spares form.forbidden node := by
  have fits : (decide (form.rule = Pattern.descendants) || decide (form.rule = Pattern.wildcard) ||
      decide (form.rule = tree.rule node)) = true := by
    rcases anyRule with deep | flat
    · simp [deep]
    · simp [flat]
  rw [accepts, spares, fits, Bool.true_and, List.not_any_eq_all_not]

theorem match_form_of_blocked {node : NodeId} {form : NodeForm} (levels : Nat)
    (blocked : ¬tree.accepts node form = true) : tree.matchForm levels node form = [] := by
  cases levels with
  | zero => rfl
  | succ levels => rw [matchForm, if_neg blocked]

/-- The matches of a form for every deeper level are those of the form for one level, collected from
the nodes to which the way is clear. -/
theorem match_form_descendants (consistent : tree.Consistent) (acyclic : tree.Acyclic)
    (captures : List String) (children : List Pattern) (forbidden : List String) {node : NodeId}
    (known : tree.contains node = true) :
    tree.matchForm tree.size node ⟨Pattern.descendants, captures, children, forbidden⟩ =
      ((tree.subtree node).filter fun found =>
        (tree.wayDown node found).all (tree.spares forbidden)).flatMap fun found =>
          tree.matchForm tree.size found ⟨Pattern.wildcard, captures, children, forbidden⟩ := by
  let deep : NodeForm := ⟨Pattern.descendants, captures, children, forbidden⟩
  let flat : NodeForm := ⟨Pattern.wildcard, captures, children, forbidden⟩
  have deepAccepts : ∀ node, tree.accepts node deep = tree.spares forbidden node :=
    fun _ => accepts_eq_spares (Or.inl rfl)
  have flatAccepts : ∀ node, tree.accepts node flat = tree.spares forbidden node :=
    fun _ => accepts_eq_spares (Or.inr rfl)
  have flatOnly : ¬flat.rule = Pattern.descendants := by
    show ¬Pattern.wildcard = Pattern.descendants
    decide
  show tree.matchForm tree.size node deep = _
  refine consistent.from_leaves acyclic (fun node known childrenToo => ?_) known
  by_cases spared : tree.spares forbidden node = true
  · have here : tree.matchForm tree.size node flat =
        tree.matchChildren (tree.children node) children (tree.seedCaptures node deep) 0 := by
      rw [match_form_unfold consistent acyclic known, if_pos (by rw [flatAccepts, spared]),
        if_neg flatOnly, List.append_nil]
      rfl
    have deeper : ((tree.children node).flatMap fun child => tree.matchForm tree.size child deep) =
        (((tree.children node).flatMap tree.subtree).filter fun found =>
          (tree.wayDown node found).all (tree.spares forbidden)).flatMap fun found =>
            tree.matchForm tree.size found flat := by
      rw [List.filter_flatMap, List.flatMap_assoc]
      apply List.flatMap_congr
      intro child listed
      have clear : ∀ found ∈ tree.subtree child,
          (tree.wayDown node found).all (tree.spares forbidden) =
            (tree.wayDown child found).all (tree.spares forbidden) :=
        fun _ below => clear_through consistent acyclic spared listed below
      rw [childrenToo child listed, List.filter_congr clear]
    have clearHere : (tree.wayDown node node).all (tree.spares forbidden) = true := by
      rw [way_down_itself consistent acyclic known, List.all_cons, spared]
      rfl
    rw [match_form_unfold consistent acyclic known, if_pos (by rw [deepAccepts, spared]),
      if_pos rfl, deeper, subtree_unfold consistent acyclic known,
      List.filter_cons, if_pos clearHere, List.flatMap_cons, here]
  · rw [match_form_of_blocked tree.size (by rw [deepAccepts]; exact spared),
      nowhere_clear consistent acyclic known spared]
    rfl

/-- A pattern for every deeper level matches at a node as the same pattern for one level matches at
the nodes of the subtree, in pre-order, except those for which a node on the way down, the first and
the last one included, has a child with a forbidden rule. The subtree in pre-order is a node followed
by the subtrees of its children, and it holds whatever a way leads down to. -/
theorem match_at_descendants (consistent : tree.Consistent) (acyclic : tree.Acyclic)
    (captures : List String) (children : List Pattern) (forbidden : List String) (optional : Bool)
    {node : NodeId} (known : tree.contains node = true) :
    (tree.matchAt node (.node Pattern.descendants captures children forbidden optional) =
        ((tree.subtree node).filter fun found =>
          (tree.wayDown node found).all (tree.spares forbidden)).flatMap fun found =>
            tree.matchAt found (.node Pattern.wildcard captures children forbidden optional)) ∧
      (∀ top, tree.contains top = true →
        tree.subtree top = top :: (tree.children top).flatMap tree.subtree) ∧
      (∀ found, found ∈ tree.subtree node ↔ ∃ above, tree.Descent node above found) ∧
      ∀ above found, tree.Descent node above found →
        tree.wayDown node found = above ++ [found] := by
  refine ⟨?_, fun _ => subtree_unfold consistent acyclic, ?_, ?_⟩
  · simp only [matchAt, Pattern.nodeForms, List.flatMap_singleton]
    exact match_form_descendants consistent acyclic captures children forbidden known
  · intro found
    rw [mem_subtree_iff consistent acyclic known]
    constructor
    · exact descent_of_reaches
    · rintro ⟨above, descent⟩
      exact descent.reaches
  · intro above found descent
    exact descent.way_down consistent acyclic known

/-- A definition, and a class with a comment next to a definition of its own. -/
def commentedClass : Tree :=
  let span : Span := ⟨0, 0, 1, 0⟩
  ⟨#[⟨0, "module", "", span, none, [1, 3]⟩, ⟨1, "def", "", span, some 0, [2]⟩,
    ⟨2, "name", "f", span, some 1, []⟩, ⟨3, "class", "", span, some 0, [4, 5]⟩,
    ⟨4, "comment", "", span, some 3, []⟩, ⟨5, "def", "", span, some 3, [6]⟩,
    ⟨6, "name", "g", span, some 5, []⟩], some 0⟩

/-- The class is left out with its definition, although the definition has no comment. As something
below a child the class and what it holds are found all the same. -/
theorem commented_class_left_out :
    let inner : Pattern := .node Pattern.descendants ["below"] [] [] false
    let scopes (rule : String) : Pattern := .node rule ["scope"] [inner] ["comment"] false
    commentedClass.contains 0 = true ∧
      commentedClass.matchAt 0 (scopes Pattern.descendants) =
        [0, 1, 2].flatMap (commentedClass.matchAt · (scopes Pattern.wildcard)) ∧
      ((commentedClass.matchAt 0 (scopes Pattern.descendants)).map fun captures =>
        (captures.find? "scope", captures.find? "below")) =
          [(some 0, some 1), (some 0, some 2), (some 0, some 3), (some 0, some 4), (some 0, some 5),
            (some 0, some 6), (some 1, some 2)] := by
  intro inner scopes
  have consistent : commentedClass.Consistent := consistent_of_arena (by decide) (by decide)
  have acyclic : commentedClass.Acyclic := acyclic_of_downward (by decide)
  have known : commentedClass.contains 0 = true := by decide
  have collected :=
    (match_at_descendants consistent acyclic ["scope"] [inner] ["comment"] false known).1
  have clear : ((commentedClass.subtree 0).filter fun found =>
      (commentedClass.wayDown 0 found).all (commentedClass.spares ["comment"])) = [0, 1, 2] := by
    decide +kernel
  rw [clear] at collected
  exact ⟨known, collected, by decide +kernel⟩

end Tree

end SyntaxGraph
