import SyntaxGraph.Proofs.Tree.History

/-!
When edits leave a forest. Every line of recorded parents has to end, and no node may lie below
itself; the second follows from the first, since a listed child records the node that lists it. The
only way to lose a forest is to hang a node below itself, which attaching and replacing do not refuse.
-/

set_option autoImplicit false

namespace SyntaxGraph

namespace Tree

variable {tree : Tree}

def Records (tree : Tree) (node parent : NodeId) : Prop := tree.parent? node = some parent

/-- Recorded parents lead from the first node to the second one, in any number of steps. -/
def ClimbsTo (tree : Tree) : NodeId → NodeId → Prop := Relation.ReflTransGen tree.Records

/-- The line of recorded parents above a node comes to an end. -/
inductive Grounded (tree : Tree) : NodeId → Prop
  | top {node : NodeId} (parentless : tree.parent? node = none) : Grounded tree node
  | under {node parent : NodeId} (recorded : tree.parent? node = some parent)
      (above : Grounded tree parent) : Grounded tree node

structure Forest (tree : Tree) : Prop where
  acyclic : tree.Acyclic
  grounded : ∀ node, tree.Grounded node

-- Lines of parents

theorem Grounded.not_above_itself {node : NodeId} (grounded : tree.Grounded node) :
    ¬Relation.TransGen tree.Records node node := by
  induction grounded with
  | top parentless =>
      intro cycle
      obtain ⟨parent, recorded, _⟩ := Relation.TransGen.head'_iff.1 cycle
      rw [Records, parentless] at recorded
      cases recorded
  | under recorded _ induction =>
      intro cycle
      obtain ⟨parent, first, climbs⟩ := Relation.TransGen.head'_iff.1 cycle
      rw [Records, recorded] at first
      cases first
      exact induction (Relation.TransGen.tail' climbs recorded)

theorem climbs_of_reaches (consistent : tree.Consistent) {upper lower : NodeId}
    (reaches : Relation.TransGen tree.IsChild upper lower) :
    Relation.TransGen tree.Records lower upper := by
  induction reaches with
  | single listed => exact Relation.TransGen.single (consistent.parent_of_child _ _ listed)
  | tail _ listed induction =>
      exact Relation.TransGen.head (consistent.parent_of_child _ _ listed) induction

theorem forest_iff_grounded (consistent : tree.Consistent) :
    tree.Forest ↔ ∀ node, tree.Grounded node := by
  constructor
  · exact Forest.grounded
  · intro grounded
    refine ⟨?_, grounded⟩
    intro node cycle
    exact (grounded node).not_above_itself (climbs_of_reaches consistent cycle)

theorem Grounded.of_fewer_parents {after : Tree} {node : NodeId} (grounded : tree.Grounded node)
    (kept : ∀ other parent, after.parent? other = some parent → tree.parent? other = some parent) :
    after.Grounded node := by
  induction grounded with
  | top parentless =>
      apply Grounded.top
      cases recorded : after.parent? _ with
      | none => rfl
      | some parent =>
          rw [kept _ parent recorded] at parentless
          cases parentless
  | @under node parent recorded _ induction =>
      cases left : after.parent? node with
      | none => exact Grounded.top left
      | some other =>
          have same := kept node other left
          rw [recorded] at same
          cases same
          exact Grounded.under left induction

theorem grounded_of_same_parents {after : Tree}
    (same : ∀ node, after.parent? node = tree.parent? node)
    (grounded : ∀ node, tree.Grounded node) (node : NodeId) : after.Grounded node :=
  (grounded node).of_fewer_parents fun other _ recorded => (same other).symm.trans recorded

theorem grounded_rooted (root : Option NodeId) (grounded : ∀ node, tree.Grounded node) :
    ∀ node, Tree.Grounded { tree with root := root } node := by
  apply grounded_of_same_parents _ grounded
  exact fun _ => rfl

theorem Numbered.grounded_push (numbered : tree.Numbered) {parent : Option NodeId}
    (parentKnown : ∀ lister ∈ parent, tree.contains lister = true) (rule text : String) (span : Span)
    (grounded : ∀ node, tree.Grounded node) (node : NodeId) :
    (tree.push parent rule text span).Grounded node := by
  have old : ∀ other, tree.Grounded other → tree.contains other = true →
      (tree.push parent rule text span).Grounded other := by
    intro other ends
    induction ends with
    | top parentless =>
        intro known
        apply Grounded.top
        rw [parent_push, if_neg (Nat.ne_of_lt (of_decide_eq_true known))]
        exact parentless
    | under recorded _ induction =>
        intro known
        refine Grounded.under ?_ (induction (numbered.parent_known _ _ recorded))
        rw [parent_push, if_neg (Nat.ne_of_lt (of_decide_eq_true known))]
        exact recorded
  by_cases known : tree.contains node = true
  · exact old node (grounded node) known
  · have recorded := tree.parent_push parent rule text span node
    by_cases fresh : node = tree.size
    · rw [if_pos fresh] at recorded
      cases parent with
      | none => exact Grounded.top recorded
      | some lister =>
          have lister_known := parentKnown lister rfl
          exact Grounded.under recorded (old lister (grounded lister) lister_known)
    · have unknown : tree.parent? node = none := by
        rw [parent?, node_of_unknown known]
        rfl
      rw [if_neg fresh, unknown] at recorded
      exact Grounded.top recorded

section NewParent

variable {node parent : NodeId} (known : tree.contains node = true)
include known

/-- If the new parent's line leads to the node, no line that ends passes the node any more. -/
theorem Grounded.apart_from_loop (climbs : tree.ClimbsTo parent node) {other : NodeId}
    (grounded : (tree.setParent node (some parent)).Grounded other) : ¬tree.ClimbsTo other node := by
  induction grounded with
  | @top other parentless =>
      intro passes
      rw [parent_set_parent known] at parentless
      rcases Relation.ReflTransGen.cases_head passes with same | ⟨upper, recorded, _⟩
      · simp [same] at parentless
      · split at parentless
        · cases parentless
        · rw [Records, parentless] at recorded
          cases recorded
  | @under other upper recorded _ induction =>
      intro passes
      rw [parent_set_parent known] at recorded
      split at recorded
      · cases recorded
        exact induction climbs
      · rename_i different
        rcases Relation.ReflTransGen.cases_head passes with same | ⟨next, first, rest⟩
        · exact different same
        · rw [Records, recorded] at first
          cases first
          exact induction rest

/-- A line that does not pass the node is what it was. -/
theorem Grounded.beside {other : NodeId} (grounded : tree.Grounded other)
    (outside : ¬tree.ClimbsTo other node) :
    (tree.setParent node (some parent)).Grounded other := by
  have distinct : ∀ {lower}, ¬tree.ClimbsTo lower node → lower ≠ node := by
    intro lower apart same
    rw [same] at apart
    exact apart Relation.ReflTransGen.refl
  induction grounded with
  | top parentless =>
      apply Grounded.top
      rw [parent_set_parent known, if_neg (distinct outside)]
      exact parentless
  | under recorded _ induction =>
      have further := induction fun climbs => outside (Relation.ReflTransGen.head recorded climbs)
      refine Grounded.under ?_ further
      rw [parent_set_parent known, if_neg (distinct outside)]
      exact recorded

/-- With a new parent for one node all lines end, unless the parent's line leads to that node. -/
theorem grounded_set_parent_iff (grounded : ∀ other, tree.Grounded other) :
    (∀ other, (tree.setParent node (some parent)).Grounded other) ↔
      ¬tree.ClimbsTo parent node := by
  constructor
  · intro ends climbs
    exact (ends parent).apart_from_loop known climbs climbs
  · intro outside other
    have above : (tree.setParent node (some parent)).Grounded parent :=
      (grounded parent).beside known outside
    have recorded := fun lower => tree.parent_set_parent known lower (some parent)
    induction grounded other with
    | @top other parentless =>
        by_cases same : other = node
        · refine Grounded.under ?_ above
          rw [recorded, if_pos same]
        · apply Grounded.top
          rw [recorded, if_neg same]
          exact parentless
    | @under other upper recordedOld _ induction =>
        by_cases same : other = node
        · refine Grounded.under ?_ above
          rw [recorded, if_pos same]
        · refine Grounded.under ?_ induction
          rw [recorded, if_neg same]
          exact recordedOld

end NewParent

end Tree

-- Edits that go through, and those that do not

theorem TreeEdit.Checks.cases {Result : Type} {check : TreeEdit Unit} {passes : Tree → Prop}
    (checks : Checks check passes) (next : TreeEdit Result) (tree : Tree) :
    (∃ error, (check >>= fun _ => next).run.run tree = (.error error, tree)) ∨
      passes tree ∧ (check >>= fun _ => next).run.run tree = next.run.run tree := by
  rw [run_bind]
  rcases checks tree with ⟨error, refused⟩ | ⟨passed, ran⟩
  · exact Or.inl ⟨error, by rw [refused]⟩
  · exact Or.inr ⟨passed, by rw [ran]⟩

namespace Tree

/-- The tree with a node listed last under a new parent. -/
def attached (tree : Tree) (parent child : NodeId) : Tree :=
  (tree.setParent child (some parent)).setChildren parent
    ((tree.setParent child (some parent)).children parent ++ [child])

/-- The tree with a node in the place of a child, which has no parent any more. -/
def replaced (tree : Tree) (parent : NodeId) (index : Nat) (old replacement : NodeId) : Tree :=
  ((tree.setChildren parent ((tree.children parent).set index replacement)).setParent old
    none).setParent replacement (some parent)

end Tree

namespace TreeEdit

theorem attach_child_cases (tree : Tree) (parent child : NodeId) :
    (∃ error, (attachChild parent child).run.run tree = (.error error, tree)) ∨
      tree.contains parent = true ∧ tree.contains child = true ∧ tree.Detached child ∧
        (attachChild parent child).run.run tree = (.ok (), tree.attached parent child) := by
  unfold attachChild
  rcases (require_node_checks parent).cases _ tree with refused | ⟨parentKnown, ran⟩
  · exact Or.inl refused
  rw [ran]
  rcases (require_node_checks child).cases _ tree with refused | ⟨childKnown, ran⟩
  · exact Or.inl refused
  rw [ran]
  rcases (require_detached_checks child).cases _ tree with refused | ⟨detached, ran⟩
  · exact Or.inl refused
  rw [ran]
  exact Or.inr ⟨parentKnown, childKnown, detached, rfl⟩

theorem replace_child_cases (tree : Tree) (parent : NodeId) (index : Nat) (replacement : NodeId) :
    (∃ error, (replaceChild parent index replacement).run.run tree = (.error error, tree)) ∨
      ∃ old, (tree.children parent)[index]? = some old ∧ tree.contains replacement = true ∧
        (old = replacement ∧ (replaceChild parent index replacement).run.run tree = (.ok old, tree) ∨
          old ≠ replacement ∧ tree.Detached replacement ∧
            (replaceChild parent index replacement).run.run tree =
              (.ok old, tree.replaced parent index old replacement)) := by
  unfold replaceChild
  rcases (require_node_checks replacement).cases _ tree with refused | ⟨known, ran⟩
  · exact Or.inl refused
  rw [ran]
  rw [run_bind, run_get]
  dsimp only
  rw [run_bind, run_child]
  cases found : tree.child parent index with
  | error error => exact Or.inl ⟨error, rfl⟩
  | ok old =>
      dsimp only
      by_cases same : old = replacement
      · rw [if_pos same]
        exact Or.inr ⟨old, Tree.child_of_ok found, known, Or.inl ⟨same, rfl⟩⟩
      · rw [if_neg same]
        rcases (require_detached_checks replacement).cases _ tree with refused | ⟨detached, ran⟩
        · exact Or.inl refused
        · exact Or.inr ⟨old, Tree.child_of_ok found, known, Or.inr ⟨same, detached, ran⟩⟩

end TreeEdit

/-- The call goes through and lists a node under itself or under a node whose recorded parents lead
up to it. -/
def EditCall.HangsBelowItself (tree : Tree) : EditCall → Prop
  | .attachChild parent child =>
      ((TreeEdit.attachChild parent child).run.run tree).1 = .ok () ∧ tree.ClimbsTo parent child
  | .replaceChild parent index replacement =>
      (∃ old, ((TreeEdit.replaceChild parent index replacement).run.run tree).1 = .ok old) ∧
        tree.ClimbsTo parent replacement
  | _ => False

namespace Tree

variable {tree : Tree}

theorem climbs_of_fewer_parents {after : Tree} {lower upper : NodeId}
    (kept : ∀ other parent, after.parent? other = some parent → tree.parent? other = some parent)
    (climbs : after.ClimbsTo lower upper) : tree.ClimbsTo lower upper :=
  Relation.ReflTransGen.mono kept lower upper climbs

theorem grounded_attached_iff (grounded : ∀ node, tree.Grounded node) {parent child : NodeId}
    (known : tree.contains child = true) :
    (∀ node, (tree.attached parent child).Grounded node) ↔ ¬tree.ClimbsTo parent child := by
  rw [← grounded_set_parent_iff known grounded]
  constructor
  · exact grounded_of_same_parents fun node => (parent_set_children parent node _).symm
  · exact grounded_of_same_parents fun node => parent_set_children parent node _

section Replacing

variable {parent old replacement : NodeId} {index : Nat}

/-- What the replaced child loses is not on the line above its parent. -/
theorem climbs_to_set_parent_none {lower upper : NodeId} (known : tree.contains old = true)
    (outside : ¬tree.ClimbsTo lower old) (climbs : tree.ClimbsTo lower upper) :
    (tree.setParent old none).ClimbsTo lower upper := by
  induction climbs using Relation.ReflTransGen.head_induction_on with
  | refl => exact Relation.ReflTransGen.refl
  | @head lower next recorded _ induction =>
      have different : lower ≠ old := by
        intro same
        rw [same] at outside
        exact outside Relation.ReflTransGen.refl
      refine Relation.ReflTransGen.head ?_ (induction fun further =>
        outside (Relation.ReflTransGen.head recorded further))
      rw [Records, parent_set_parent known, if_neg different]
      exact recorded

theorem grounded_replaced_iff (consistent : tree.Consistent)
    (grounded : ∀ node, tree.Grounded node) (there : (tree.children parent)[index]? = some old)
    (known : tree.contains replacement = true) :
    (∀ node, (tree.replaced parent index old replacement).Grounded node) ↔
      ¬tree.ClimbsTo parent replacement := by
  let relisted := tree.setChildren parent ((tree.children parent).set index replacement)
  have listed : old ∈ tree.children parent := List.mem_of_getElem? there
  have parents : ∀ node, relisted.parent? node = tree.parent? node := fun node =>
    parent_set_children parent node _
  have sameSize : tree.size ≤ relisted.size := Nat.le_of_eq (size_set_children parent _).symm
  have oldKnown : relisted.contains old = true :=
    contains_mono sameSize (consistent.child_known listed)
  have kept : ∀ node lister, (relisted.setParent old none).parent? node = some lister →
      tree.parent? node = some lister := by
    intro node lister recorded
    rw [parent_set_parent oldKnown] at recorded
    split at recorded
    · cases recorded
    · rw [← parents node]
      exact recorded
  have freed : ∀ node, (relisted.setParent old none).Grounded node := fun node =>
    (grounded node).of_fewer_parents kept
  have replacementKnown : (relisted.setParent old none).contains replacement = true := by
    apply contains_mono _ known
    rw [size_set_parent]
    exact sameSize
  rw [replaced, grounded_set_parent_iff replacementKnown freed, not_iff_not]
  constructor
  · exact climbs_of_fewer_parents kept
  · intro climbs
    -- The line above the parent never comes back to its child.
    have outside : ¬tree.ClimbsTo parent old := by
      intro back
      have recorded := consistent.parent_of_child parent old listed
      exact (grounded parent).not_above_itself (Relation.TransGen.tail' back recorded)
    apply climbs_to_set_parent_none oldKnown
    · intro back
      exact outside (climbs_of_fewer_parents (fun node lister same => (parents node).symm.trans same) back)
    · exact climbs_of_fewer_parents (fun node lister same => (parents node).trans same) climbs

end Replacing

theorem copy_children_grounded {copied : NodeId} (children : List NodeId) (tree : Tree)
    (numbered : tree.Numbered) (known : tree.contains copied = true)
    (grounded : ∀ node, tree.Grounded node) :
    ∀ node, (copyChildren copied children tree).2.Grounded node := by
  induction children generalizing tree with
  | nil => exact grounded
  | cons child rest induction =>
      unfold copyChildren
      cases tree.node? child with
      | none => exact induction tree numbered known grounded
      | some node =>
          have pushed := numbered.push (recorded_known known) node.rule node.text node.span
          apply induction _ (pushed.setChildren copied _)
          · apply contains_mono _ known
            rw [size_set_children, size_push]
            exact Nat.le_succ _
          · apply grounded_of_same_parents fun other => parent_set_children copied other _
            exact numbered.grounded_push (recorded_known known) node.rule node.text node.span grounded

end Tree

namespace TreeEdit

variable {tree : Tree} (wellFormed : tree.WellFormed) (grounded : ∀ node, tree.Grounded node)
include wellFormed grounded

theorem add_node_grounded (parent : Option NodeId) (rule text : String) (span : Span) :
    ∀ node, ((addNode parent rule text span).run.run tree).2.Grounded node :=
  add_node_keeps (fun tree => ∀ node, tree.Grounded node) grounded parent rule text span
    (fun _ known => wellFormed.toNumbered.grounded_push known rule text span grounded)
    (Tree.grounded_rooted _
      (wellFormed.toNumbered.grounded_push (by simp) rule text span grounded))

theorem push_child_grounded (parent : NodeId) (rule text : String) (span : Span) :
    ∀ node, ((pushChild parent rule text span).run.run tree).2.Grounded node := by
  by_cases known : tree.contains parent = true
  · -- The new node records its parent already, so listing it there changes no line.
    rw [run_push_child known rule text span wellFormed, ← Tree.push_set_children known]
    apply Tree.grounded_of_same_parents fun node => Tree.parent_set_children parent node _
    exact wellFormed.toNumbered.grounded_push (Tree.recorded_known known) rule text span grounded
  · rw [push_child_refuses known]
    exact grounded

theorem deep_copy_grounded (id : NodeId) :
    ∀ node, ((deepCopy id).run.run tree).2.Grounded node :=
  Tree.deep_copy_keeps (fun tree => ∀ node, tree.Grounded node)
    (fun _ children tree wellFormed known kept =>
      Tree.copy_children_grounded children tree wellFormed.toNumbered known kept)
    wellFormed grounded
    (fun rule text span => wellFormed.toNumbered.grounded_push (by simp) rule text span grounded) id

end TreeEdit

/-- A call leaves a forest a forest unless it hangs a node below itself, and then it does not. -/
theorem EditCall.leaves_forest_iff {tree : Tree} (wellFormed : tree.WellFormed)
    (forest : tree.Forest) (call : EditCall) :
    (call.leaves tree).Forest ↔ ¬call.HangsBelowItself tree := by
  rw [Tree.forest_iff_grounded (call.leaves_well_formed wellFormed).toConsistent]
  have grounded := forest.grounded
  cases call with
  | addNode parent rule text span =>
      exact iff_of_true (TreeEdit.add_node_grounded wellFormed grounded parent rule text span) id
  | attachChild parent child =>
      rcases TreeEdit.attach_child_cases tree parent child with
        ⟨error, refused⟩ | ⟨_, known, _, ran⟩
      · simp [leaves, HangsBelowItself, refused, grounded]
      · simp [leaves, HangsBelowItself, ran, Tree.grounded_attached_iff grounded known]
  | pushChild parent rule text span =>
      exact iff_of_true (TreeEdit.push_child_grounded wellFormed grounded parent rule text span) id
  | replaceChild parent index replacement =>
      rcases TreeEdit.replace_child_cases tree parent index replacement with
        ⟨error, refused⟩ | ⟨old, there, known, ⟨same, ran⟩ | ⟨_, _, ran⟩⟩
      · simp [leaves, HangsBelowItself, refused, grounded]
      · -- The child records its parent, so in a forest the parent's line does not lead to it.
        have listed : old ∈ tree.children parent := List.mem_of_getElem? there
        have recorded := wellFormed.parent_of_child parent old listed
        have outside : ¬tree.ClimbsTo parent replacement := by
          rw [← same]
          intro back
          exact (grounded parent).not_above_itself (Relation.TransGen.tail' back recorded)
        simp [leaves, HangsBelowItself, ran, grounded, outside]
      · simp [leaves, HangsBelowItself, ran,
          Tree.grounded_replaced_iff wellFormed.toConsistent grounded there known]
  | deepCopy id =>
      exact iff_of_true (TreeEdit.deep_copy_grounded wellFormed grounded id) fun hangs => hangs
  | setRoot id =>
      rcases (TreeEdit.require_node_checks id).cases
        (modify fun tree => { tree with root := some id }) tree with
        ⟨error, refused⟩ | ⟨_, ran⟩
      · have same : ((TreeEdit.setRoot id).run.run tree).2 = tree := congrArg Prod.snd refused
        simp [leaves, HangsBelowItself, same, grounded]
      · have rooted : ((TreeEdit.setRoot id).run.run tree).2 = { tree with root := some id } :=
          congrArg Prod.snd ran
        simp only [leaves, HangsBelowItself, rooted, not_false_eq_true, iff_true]
        exact Tree.grounded_rooted _ grounded

end SyntaxGraph
