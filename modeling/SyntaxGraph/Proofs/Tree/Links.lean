import Mathlib.Data.List.Nodup
import Mathlib.Logic.Relation
import SyntaxGraph.Tree.Order

/-!
Child links of a tree, and the ways down along them. Links are consistent when a listed child
records the node that lists it and no list has repeats, which is what the edits keep. Recorded
parents above the root are left out of account throughout: a root may record one of its own
descendants as its parent, while the child links are acyclic all the same.
-/

set_option autoImplicit false

namespace SyntaxGraph

namespace Tree

def IsChild (tree : Tree) (parent child : NodeId) : Prop := child ∈ tree.children parent

/-- No node reaches itself by one or more child links. -/
def Acyclic (tree : Tree) : Prop := ∀ node, ¬Relation.TransGen tree.IsChild node node

def ListsKnown (tree : Tree) : Prop :=
  ∀ parent, ∀ child ∈ tree.children parent, tree.contains child = true

/-- What the edits keep of the child links and the root. A node is listed at most once, since its
only recorded parent lists it without repeats. -/
structure Consistent (tree : Tree) : Prop where
  parent_of_child : ∀ parent child, child ∈ tree.children parent →
    tree.parent? child = some parent
  children_nodup : ∀ parent, (tree.children parent).Nodup
  root_known : ∀ root, tree.root = some root → tree.contains root = true

/-- A way down by child links from a node to another one. The list holds the nodes on the way above
the last one, the upper end first. -/
inductive Descent (tree : Tree) (top : NodeId) : List NodeId → NodeId → Prop
  | here : Descent tree top [] top
  | step {above : List NodeId} {node child : NodeId} (descent : Descent tree top above node)
      (listed : child ∈ tree.children node) : Descent tree top (above ++ [node]) child

def FitsWithin (tree : Tree) : Nat → NodeId → Prop
  | 0, _ => False
  | levels + 1, node => ∀ child ∈ tree.children node, tree.FitsWithin levels child

/-- The nodes above a node up to the root, the root first. -/
def lineage (tree : Tree) (node : NodeId) : List NodeId :=
  match tree.root with
  | none => []
  | some root =>
      if node = root then []
      else root :: ((tree.ancestors node).takeWhile (· ≠ root)).reverse

variable {tree : Tree}

theorem node_of_unknown {node : NodeId} (unknown : ¬tree.contains node = true) :
    tree.node? node = none := by
  apply Array.getElem?_eq_none
  by_contra inside
  exact unknown (decide_eq_true (Nat.not_le.1 inside))

theorem node_of_known {node : NodeId} (known : tree.contains node = true) :
    ∃ found, tree.node? node = some found := by
  have inside : node < tree.nodes.size := of_decide_eq_true known
  exact ⟨tree.nodes[node], Array.getElem?_eq_getElem inside⟩

theorem known_of_found {node : NodeId} {found : Node} (issued : tree.node? node = some found) :
    tree.contains node = true := by
  by_contra unknown
  rw [node_of_unknown unknown] at issued
  cases issued

theorem known_of_parent {node parent : NodeId} (recorded : tree.parent? node = some parent) :
    tree.contains node = true := by
  by_contra unknown
  simp [parent?, node_of_unknown unknown] at recorded

theorem known_of_listing {node child : NodeId} (listed : child ∈ tree.children node) :
    tree.contains node = true := by
  by_contra unknown
  simp [children, node_of_unknown unknown] at listed

theorem Consistent.child_known (consistent : tree.Consistent) {parent child : NodeId}
    (listed : child ∈ tree.children parent) : tree.contains child = true :=
  known_of_parent (consistent.parent_of_child parent child listed)

theorem Consistent.lists_known (consistent : tree.Consistent) : tree.ListsKnown :=
  fun _ _ listed => consistent.child_known listed

theorem Consistent.known_of_reaches (consistent : tree.Consistent) {top node : NodeId}
    (known : tree.contains top = true) (reaches : Relation.ReflTransGen tree.IsChild top node) :
    tree.contains node = true := by
  induction reaches with
  | refl => exact known
  | tail _ listed _ => exact consistent.child_known listed

/-- The links of a tree need to be checked at its own nodes only. -/
theorem consistent_of_arena
    (links : ∀ parent < tree.size, (tree.children parent).Nodup ∧
      ∀ child ∈ tree.children parent, tree.parent? child = some parent)
    (rooted : ∀ root ∈ tree.root, root < tree.size) : tree.Consistent := by
  refine ⟨?_, ?_, ?_⟩
  · intro parent child listed
    exact (links parent (of_decide_eq_true (known_of_listing listed))).2 child listed
  · intro parent
    by_cases inside : parent < tree.size
    · exact (links parent inside).1
    · have unknown : ¬tree.contains parent = true := fun known => inside (of_decide_eq_true known)
      simp [children, node_of_unknown unknown]
  · intro root recorded
    exact decide_eq_true (rooted root recorded)

/-- Links that lead to later nodes only are acyclic. -/
theorem acyclic_of_downward
    (downward : ∀ parent < tree.size, ∀ child ∈ tree.children parent, parent < child) :
    tree.Acyclic := by
  have grows : ∀ upper lower, Relation.TransGen tree.IsChild upper lower → upper < lower := by
    intro upper lower reaches
    induction reaches with
    | single listed => exact downward _ (of_decide_eq_true (known_of_listing listed)) _ listed
    | tail _ listed induction =>
        have last := downward _ (of_decide_eq_true (known_of_listing listed)) _ listed
        exact Nat.lt_trans induction last
  intro node cycle
  exact Nat.lt_irrefl node (grows node node cycle)

theorem Descent.reaches {top node : NodeId} {above : List NodeId}
    (descent : tree.Descent top above node) : Relation.ReflTransGen tree.IsChild top node := by
  induction descent with
  | here => exact Relation.ReflTransGen.refl
  | step _ listed induction => exact induction.tail listed

theorem descent_of_reaches {top node : NodeId}
    (reaches : Relation.ReflTransGen tree.IsChild top node) :
    ∃ above, tree.Descent top above node := by
  induction reaches with
  | refl => exact ⟨[], Descent.here⟩
  | tail _ listed induction =>
      obtain ⟨above, descent⟩ := induction
      exact ⟨_, descent.step listed⟩

theorem Descent.above_reaches {top node : NodeId} {above : List NodeId}
    (descent : tree.Descent top above node) :
    ∀ passed ∈ above, Relation.TransGen tree.IsChild passed node := by
  induction descent with
  | here => simp
  | step _ listed induction =>
      intro passed member
      rcases List.mem_append.1 member with earlier | last
      · exact (induction passed earlier).tail listed
      · rw [List.mem_singleton.1 last]
        exact Relation.TransGen.single listed

theorem Descent.top_reaches {top node : NodeId} {above : List NodeId}
    (descent : tree.Descent top above node) :
    ∀ passed ∈ above, Relation.ReflTransGen tree.IsChild top passed := by
  induction descent with
  | here => simp
  | step descent _ induction =>
      intro passed member
      rcases List.mem_append.1 member with earlier | last
      · exact induction passed earlier
      · rw [List.mem_singleton.1 last]
        exact descent.reaches

theorem Descent.nodup (acyclic : tree.Acyclic) {top node : NodeId} {above : List NodeId}
    (descent : tree.Descent top above node) : (above ++ [node]).Nodup := by
  induction descent with
  | here => simp
  | step descent listed induction =>
      rename_i passed lister child
      refine List.nodup_append.2 ⟨induction, by simp, ?_⟩
      intro earlier member last lastMember same
      subst same
      rw [List.mem_singleton.1 lastMember] at member
      exact acyclic child ((descent.step listed).above_reaches child member)

theorem Descent.known (listsKnown : tree.ListsKnown) {top node : NodeId} {above : List NodeId}
    (known : tree.contains top = true) (descent : tree.Descent top above node) :
    ∀ passed ∈ above ++ [node], tree.contains passed = true := by
  induction descent with
  | here => simpa using known
  | step _ listed induction =>
      intro passed member
      rcases List.mem_append.1 member with earlier | last
      · exact induction passed earlier
      · rw [List.mem_singleton.1 last]
        exact listsKnown _ _ listed

/-- A way down passes every node at most once, so it is shorter than the arena. -/
theorem Descent.length_lt_size (listsKnown : tree.ListsKnown) (acyclic : tree.Acyclic)
    {top node : NodeId} {above : List NodeId} (known : tree.contains top = true)
    (descent : tree.Descent top above node) : above.length < tree.size := by
  have inside : above ++ [node] ⊆ List.range tree.size := by
    intro passed member
    have passedKnown := descent.known listsKnown known passed member
    simpa [contains] using passedKnown
  have short := List.Nodup.length_le_of_subset (descent.nodup acyclic) inside
  simp only [List.length_append, List.length_singleton, List.length_range] at short
  omega

theorem Descent.fits_within (listsKnown : tree.ListsKnown) (acyclic : tree.Acyclic)
    {top node : NodeId} {above : List NodeId} (known : tree.contains top = true)
    (descent : tree.Descent top above node) (levels : Nat)
    (enough : tree.size ≤ above.length + levels) : tree.FitsWithin levels node := by
  induction levels generalizing above node with
  | zero =>
      have short := descent.length_lt_size listsKnown acyclic known
      omega
  | succ levels induction =>
      intro child listed
      apply induction (descent.step listed)
      simp only [List.length_append, List.length_singleton]
      omega

/-- The arena has more nodes than any subtree has levels. -/
theorem ListsKnown.fits_within_size (listsKnown : tree.ListsKnown) (acyclic : tree.Acyclic)
    {node : NodeId} (known : tree.contains node = true) : tree.FitsWithin tree.size node :=
  Descent.here.fits_within listsKnown acyclic known tree.size (by simp)

theorem fits_within_size (consistent : tree.Consistent) (acyclic : tree.Acyclic) {node : NodeId}
    (known : tree.contains node = true) : tree.FitsWithin tree.size node :=
  consistent.lists_known.fits_within_size acyclic known

/-- What passes from the children of a node to the node itself holds of every node, the leaves
included. -/
@[elab_as_elim]
theorem Consistent.from_leaves (consistent : tree.Consistent) (acyclic : tree.Acyclic)
    {motive : NodeId → Prop}
    (upwards : ∀ node, tree.contains node = true →
      (∀ child ∈ tree.children node, motive child) → motive node)
    {node : NodeId} (known : tree.contains node = true) : motive node := by
  have within : ∀ levels node, tree.FitsWithin levels node → tree.contains node = true →
      motive node := by
    intro levels
    induction levels with
    | zero => exact fun _ fits => fits.elim
    | succ levels induction =>
        intro node fits known
        exact upwards node known fun child listed =>
          induction child (fits child listed) (consistent.child_known listed)
  exact within tree.size node (fits_within_size consistent acyclic known) known

theorem FitsWithin.mono {levels more : Nat} {node : NodeId} (fits : tree.FitsWithin levels node)
    (larger : levels ≤ more) : tree.FitsWithin more node := by
  induction levels generalizing more node with
  | zero => exact fits.elim
  | succ levels induction =>
      cases more with
      | zero => omega
      | succ more => exact fun child listed => induction (fits child listed) (by omega)

theorem ancestors_within_descent (consistent : tree.Consistent) {top node : NodeId}
    {above : List NodeId} (descent : tree.Descent top above node) (bound : Nat)
    (enough : above.length ≤ bound) :
    ∃ beyond, tree.ancestorsWithin bound node = above.reverse ++ beyond := by
  induction descent generalizing bound with
  | here => exact ⟨_, rfl⟩
  | step _ listed induction =>
      simp only [List.length_append, List.length_singleton] at enough
      cases bound with
      | zero => omega
      | succ bound =>
          obtain ⟨beyond, upwards⟩ := induction bound (by omega)
          refine ⟨beyond, ?_⟩
          simp [ancestorsWithin, consistent.parent_of_child _ _ listed, upwards]

theorem Descent.from_top {top bottom : NodeId} {above : List NodeId}
    (descent : tree.Descent top above bottom) :
    (above = [] ∧ bottom = top) ∨ ∃ child ∈ tree.children top, ∃ below,
      above = top :: below ∧ tree.Descent child below bottom := by
  induction descent with
  | here => exact Or.inl ⟨rfl, rfl⟩
  | step _ listed induction =>
      right
      rcases induction with ⟨atTop, rfl⟩ | ⟨child, childListed, below, split, descent⟩
      · rw [atTop]
        exact ⟨_, listed, [], rfl, Descent.here⟩
      · rw [split]
        exact ⟨child, childListed, _, rfl, descent.step listed⟩

theorem Descent.under {top child bottom : NodeId} {below : List NodeId}
    (descent : tree.Descent child below bottom) (listed : child ∈ tree.children top) :
    tree.Descent top (top :: below) bottom := by
  induction descent with
  | here => exact Descent.here.step listed
  | step _ lowerListed induction => exact induction.step lowerListed

/-- The way down from the root is the recorded line of parents, read from the root. There is hence
only one way down to a node. -/
theorem lineage_of_descent (consistent : tree.Consistent) (acyclic : tree.Acyclic)
    {root node : NodeId} {above : List NodeId} (rooted : tree.root = some root)
    (descent : tree.Descent root above node) : tree.lineage node = above := by
  have known := consistent.root_known root rooted
  have nodup := descent.nodup acyclic
  have short := descent.length_lt_size consistent.lists_known acyclic known
  obtain ⟨beyond, upwards⟩ := ancestors_within_descent consistent descent tree.size (by omega)
  rcases descent.from_top with ⟨none_above, same⟩ | ⟨_, _, below, split, _⟩
  · simp [lineage, rooted, same, none_above]
  · subst split
    have notRoot : node ≠ root := by
      intro same
      subst same
      simp at nodup
    have untilRoot : (tree.ancestors node).takeWhile (· ≠ root) = below.reverse := by
      have clean : ∀ passed ∈ below.reverse, (decide (passed ≠ root)) = true := by
        intro passed member
        have distinct : passed ≠ root := by
          intro same
          subst same
          simp at nodup
          simp [nodup] at member
        simpa using distinct
      rw [ancestors, upwards, List.reverse_cons, List.append_assoc,
        List.takeWhile_append_of_pos clean]
      simp
    simp only [lineage, rooted, if_neg notRoot]
    rw [untilRoot, List.reverse_reverse]

end Tree

end SyntaxGraph
