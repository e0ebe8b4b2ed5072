import Mathlib.Data.List.Perm.Basic
import Mathlib.Data.Set.Function
import SyntaxGraph.Proofs.Tree.History
import SyntaxGraph.Proofs.Tree.Walk

/-!
What a copied subtree looks like. The pairs made so far, in the order of the new numbers, say which
node each new one stands for; a pair that is no longer pending has had its children copied. When
nothing is pending, the pairs hold every node of the subtree once, and their new numbers are all the
numbers that were not in use before.
-/

set_option autoImplicit false

namespace SyntaxGraph

namespace Tree

variable {before : Tree}

/-- A grown tree holds a copy of a subtree of the tree before: `copy` takes every node to the one
that stands for it. The old nodes are as they were, and all new ones belong to the copy. -/
structure Duplicates (before : Tree) (id : NodeId) (copy : NodeId → NodeId) (copied : NodeId)
    (after : Tree) : Prop where
  old_kept : ∀ node, before.contains node = true → after.node? node = before.node? node
  root_kept : after.root = before.root
  top : copy id = copied
  parentless : after.parent? copied = none
  fresh : ∀ node, Relation.ReflTransGen after.IsChild copied node ↔
    after.contains node = true ∧ before.contains node = false
  bijective : Set.BijOn copy {node | Relation.ReflTransGen before.IsChild id node}
    {node | Relation.ReflTransGen after.IsChild copied node}
  same_label : ∀ node original, Relation.ReflTransGen before.IsChild id node →
    before.node? node = some original →
      ∃ duplicate, after.node? (copy node) = some duplicate ∧ duplicate.id = copy node ∧
        duplicate.rule = original.rule ∧ duplicate.text = original.text ∧
        duplicate.span = original.span
  same_children : ∀ node, Relation.ReflTransGen before.IsChild id node →
    after.children (copy node) = (before.children node).map copy
  parent_copied : ∀ node child, Relation.ReflTransGen before.IsChild id node →
    child ∈ before.children node → after.parent? (copy child) = some (copy node)

-- The nodes below a node

/-- The nodes strictly below a node. -/
def beneath (tree : Tree) (node : NodeId) : List NodeId :=
  (tree.children node).flatMap tree.subtree

theorem flat_map_subtree_perm (consistent : before.Consistent) (acyclic : before.Acyclic)
    {nodes : List NodeId} (known : ∀ node ∈ nodes, before.contains node = true) :
    (nodes.flatMap before.subtree).Perm (nodes ++ nodes.flatMap before.beneath) := by
  have unfolded : nodes.flatMap before.subtree =
      nodes.flatMap fun node => node :: before.beneath node := by
    apply List.flatMap_congr
    intro node member
    exact subtree_unfold consistent acyclic (known node member)
  have split := List.map_append_flatMap_perm nodes id before.beneath
  rw [List.map_id] at split
  rw [unfolded]
  exact split.symm

-- One node's children

structure ListsCopies (tree : Tree) (copied : NodeId) (children : List NodeId) (after : Tree) :
    Prop where
  size_eq : after.size = tree.size + children.length
  root_kept : after.root = tree.root
  others_kept : ∀ other, tree.contains other = true → other ≠ copied →
    after.node? other = tree.node? other
  listed : ∀ node, tree.node? copied = some node → after.node? copied =
    some { node with children := node.children ++ List.range' tree.size children.length }
  made : ∀ child number, (child, number) ∈ children.zipIdx tree.size →
    ∃ original, tree.node? child = some original ∧ after.node? number =
      some ⟨number, original.rule, original.text, original.span, some copied, []⟩

theorem copy_children_lists {copied : NodeId} (children : List NodeId) (tree : Tree)
    (known : ∀ child ∈ children, tree.contains child = true ∧ child ≠ copied)
    (copiedKnown : tree.contains copied = true) :
    (copyChildren copied children tree).1 = children.zipIdx tree.size ∧
      tree.ListsCopies copied children (copyChildren copied children tree).2 := by
  induction children generalizing tree with
  | nil =>
      refine ⟨rfl, rfl, rfl, fun _ _ _ => rfl, ?_, by simp⟩
      intro node found
      simpa [copyChildren] using found
  | cons child rest induction =>
      obtain ⟨childKnown, distinct⟩ := known child List.mem_cons_self
      obtain ⟨original, found⟩ := node_of_known childKnown
      let grown := tree.push (some copied) original.rule original.text original.span
      let listed := grown.setChildren copied (grown.children copied ++ [tree.size])
      have step : copyChildren copied (child :: rest) tree =
          ((child, tree.size) :: (copyChildren copied rest listed).1,
            (copyChildren copied rest listed).2) := by
        rw [copyChildren, found]
      have size : listed.size = tree.size + 1 := by rw [size_set_children, size_push]
      have grows : tree.size ≤ listed.size := by omega
      have copiedOld : copied ≠ tree.size := Nat.ne_of_lt (of_decide_eq_true copiedKnown)
      -- Neither listing nor pushing touches an old node other than the copied parent.
      have kept : ∀ other, tree.contains other = true → other ≠ copied →
          listed.node? other = tree.node? other := by
        intro other otherKnown different
        rw [node_set_children, if_neg different, node_push,
          if_neg (Nat.ne_of_lt (of_decide_eq_true otherKnown))]
      obtain ⟨paired, later⟩ := induction listed
        (fun other member => ⟨contains_mono grows (known other (List.mem_cons_of_mem _ member)).1,
          (known other (List.mem_cons_of_mem _ member)).2⟩)
        (contains_mono grows copiedKnown)
      have fresh : listed.node? tree.size =
          some ⟨tree.size, original.rule, original.text, original.span, some copied, []⟩ := by
        rw [node_set_children, if_neg copiedOld.symm, node_push, if_pos rfl]
      rw [step]
      refine ⟨by rw [List.zipIdx_cons, paired, size], ?_, later.root_kept, ?_, ?_, ?_⟩
      · rw [later.size_eq, size, List.length_cons]
        omega
      · intro other otherKnown different
        rw [later.others_kept other (contains_mono grows otherKnown) different,
          kept other otherKnown different]
      · intro node copiedFound
        have extended : listed.node? copied =
            some { node with children := node.children ++ [tree.size] } := by
          have inGrown : grown.node? copied = some node := by
            rw [node_push, if_neg copiedOld, copiedFound]
          rw [node_set_children, if_pos rfl, inGrown, Tree.children, inGrown]
          rfl
        rw [later.listed _ extended, size, List.length_cons, List.range'_succ]
        simp
      · intro other number member
        rw [List.zipIdx_cons] at member
        rcases List.mem_cons.1 member with same | behind
        · cases same
          refine ⟨original, found, ?_⟩
          have freshKnown : listed.contains tree.size = true :=
            decide_eq_true (show tree.size < listed.size by omega)
          rw [later.others_kept tree.size freshKnown copiedOld.symm, fresh]
        · rw [← size] at behind
          obtain ⟨source, foundThere, made⟩ := later.made other number behind
          have listedOther : other ∈ rest := by
            have inside := List.mem_zipIdx_iff_le_and_getElem?_sub.1 behind
            exact List.mem_of_getElem? inside.2
          obtain ⟨otherKnown, different⟩ := known other (List.mem_cons_of_mem _ listedOther)
          rw [kept other otherKnown different] at foundThere
          exact ⟨source, foundThere, made⟩

/-- Of an old node only the list of children may have changed. -/
theorem ListsCopies.same_but_children {tree after : Tree} {copied other : NodeId}
    {children : List NodeId} (lists : tree.ListsCopies copied children after) {node : Node}
    (found : tree.node? other = some node) :
    ∃ listed, after.node? other = some { node with children := listed } := by
  by_cases same : other = copied
  · subst same
    exact ⟨_, lists.listed node found⟩
  · have known := known_of_found found
    exact ⟨node.children, by rw [lists.others_kept other known same, found]⟩

theorem ListsCopies.children_of_childless {tree after : Tree} {copied : NodeId}
    {children : List NodeId} (lists : tree.ListsCopies copied children after)
    (childless : tree.children copied = []) (known : tree.contains copied = true) :
    after.children copied = List.range' tree.size children.length := by
  obtain ⟨node, found⟩ := node_of_known known
  rw [Tree.children, found] at childless
  have none : node.children = [] := childless
  rw [Tree.children, lists.listed node found, none]
  rfl

theorem ListsCopies.children_of_other {tree after : Tree} {copied other : NodeId}
    {children : List NodeId} (lists : tree.ListsCopies copied children after)
    (known : tree.contains other = true) (different : other ≠ copied) :
    after.children other = tree.children other := by
  rw [Tree.children, lists.others_kept other known different]
  rfl

theorem ListsCopies.parent_of_old {tree after : Tree} {copied other : NodeId}
    {children : List NodeId} (lists : tree.ListsCopies copied children after)
    (known : tree.contains other = true) : after.parent? other = tree.parent? other := by
  obtain ⟨node, found⟩ := node_of_known known
  obtain ⟨listed, kept⟩ := lists.same_but_children found
  rw [parent?, parent?, kept, found]
  rfl

theorem ListsCopies.linked {tree after : Tree} {copied : NodeId} {children : List NodeId}
    (lists : tree.ListsCopies copied children after) (childless : tree.children copied = [])
    (known : tree.contains copied = true) :
    List.Forall₂ (fun child copy => (child, copy) ∈ children.zipIdx tree.size ∧
      after.parent? copy = some copied) children (after.children copied) := by
  rw [lists.children_of_childless childless known]
  apply List.forall₂_iff_zip.2
  refine ⟨(List.length_range').symm, ?_⟩
  intro child copy together
  rw [← List.zipIdx_eq_zip_range'] at together
  obtain ⟨original, _, made⟩ := lists.made child copy together
  exact ⟨together, by rw [parent?, made]; rfl⟩

-- The whole subtree

/-- What has been done when some pairs are pending. The numbers of the copies follow those of the
tree before, in the order in which their sources are held. -/
structure Copying (before : Tree) (id : NodeId) (sources : List NodeId)
    (pending : List (NodeId × NodeId)) (tree : Tree) : Prop where
  size_eq : tree.size = before.size + sources.length
  root_kept : tree.root = before.root
  old_kept : ∀ node, before.contains node = true → tree.node? node = before.node? node
  top : (id, before.size) ∈ sources.zipIdx before.size
  parentless : tree.parent? before.size = none
  waiting : pending.Sublist (sources.zipIdx before.size).reverse
  covers : (sources ++ (pending.map Prod.fst).flatMap before.beneath).Perm (before.subtree id)
  labelled : ∀ node number, (node, number) ∈ sources.zipIdx before.size →
    ∃ original duplicate, before.node? node = some original ∧ tree.node? number = some duplicate ∧
      duplicate.id = number ∧ duplicate.rule = original.rule ∧ duplicate.text = original.text ∧
      duplicate.span = original.span
  childless : ∀ node number, (node, number) ∈ pending → tree.children number = []
  linked : ∀ node number, (node, number) ∈ sources.zipIdx before.size → (node, number) ∉ pending →
    List.Forall₂ (fun child copy => (child, copy) ∈ sources.zipIdx before.size ∧
      tree.parent? copy = some number) (before.children node) (tree.children number)

theorem source_unique {sources : List NodeId} {start first second number : NodeId}
    (firstPaired : (first, number) ∈ sources.zipIdx start)
    (secondPaired : (second, number) ∈ sources.zipIdx start) : first = second := by
  have firstFound := (List.mk_mem_zipIdx_iff_le_and_getElem?_sub.1 firstPaired).2
  have secondFound := (List.mk_mem_zipIdx_iff_le_and_getElem?_sub.1 secondPaired).2
  rw [firstFound] at secondFound
  exact Option.some.inj secondFound

section Copying

variable {id : NodeId} {sources : List NodeId} {pending : List (NodeId × NodeId)} {tree : Tree}

theorem Copying.paired (copying : before.Copying id sources pending tree)
    {pair : NodeId × NodeId} (member : pair ∈ pending) : pair ∈ sources.zipIdx before.size :=
  List.mem_reverse.1 (copying.waiting.subset member)

theorem Copying.number_known (copying : before.Copying id sources pending tree)
    {node number : NodeId} (member : (node, number) ∈ sources.zipIdx before.size) :
    before.size ≤ number ∧ tree.contains number = true := by
  have lower := List.le_snd_of_mem_zipIdx member
  have upper := List.snd_lt_add_of_mem_zipIdx member
  refine ⟨lower, decide_eq_true ?_⟩
  rw [copying.size_eq]
  exact upper

theorem Copying.grows (copying : before.Copying id sources pending tree) :
    before.size ≤ tree.size := by
  rw [copying.size_eq]
  exact Nat.le_add_right _ _

theorem Copying.source_known (copying : before.Copying id sources pending tree)
    {node number : NodeId} (member : (node, number) ∈ sources.zipIdx before.size) :
    before.contains node = true := by
  obtain ⟨original, _, found, _⟩ := copying.labelled node number member
  exact known_of_found found

theorem Copying.numbers_nodup (copying : before.Copying id sources pending tree) :
    (pending.map Prod.snd).Nodup := by
  have fewer := copying.waiting.map Prod.snd
  rw [List.map_reverse, List.zipIdx_map_snd] at fewer
  exact fewer.nodup (List.nodup_reverse.2 (List.nodup_range'))

theorem Copying.number_apart {node number : NodeId}
    (copying : before.Copying id sources ((node, number) :: pending) tree) {source copy : NodeId}
    (waiting : (source, copy) ∈ pending) : copy ≠ number := by
  intro same
  have distinct := copying.numbers_nodup
  rw [List.map_cons, List.nodup_cons] at distinct
  have listed := List.mem_map_of_mem (f := Prod.snd) waiting
  rw [same] at listed
  exact distinct.1 listed

/-- What working off the pair on top does to the tree. -/
theorem Copying.lists (consistent : before.Consistent) {node number : NodeId}
    (copying : before.Copying id sources ((node, number) :: pending) tree) :
    (copyChildren number (tree.children node) tree).1 =
        (before.children node).zipIdx tree.size ∧
      tree.ListsCopies number (before.children node)
        (copyChildren number (tree.children node) tree).2 := by
  have paired := copying.paired (List.mem_cons_self (a := (node, number)) (l := pending))
  obtain ⟨isNew, numberKnown⟩ := copying.number_known paired
  have sameChildren : tree.children node = before.children node := by
    rw [Tree.children, copying.old_kept node (copying.source_known paired)]
    rfl
  rw [sameChildren]
  apply copy_children_lists _ _ _ numberKnown
  intro child listed
  have inside : child < before.size := of_decide_eq_true (consistent.child_known listed)
  exact ⟨contains_mono copying.grows (consistent.child_known listed),
    Nat.ne_of_lt (Nat.lt_of_lt_of_le inside isNew)⟩

/-- The children take the place of what lies beneath their parent, except for what lies beneath
themselves. -/
theorem Copying.covers_children (consistent : before.Consistent) (acyclic : before.Acyclic)
    {node number : NodeId} (copying : before.Copying id sources ((node, number) :: pending) tree) :
    ((sources ++ before.children node) ++
        ((((before.children node).zipIdx tree.size).reverse ++ pending).map Prod.fst).flatMap
          before.beneath).Perm (before.subtree id) := by
  have known : ∀ child ∈ before.children node, before.contains child = true :=
    fun child listed => consistent.child_known listed
  have opened := flat_map_subtree_perm consistent acyclic known
  have turned : ((before.children node).reverse.flatMap before.beneath).Perm
      ((before.children node).flatMap before.beneath) :=
    (List.reverse_perm _).flatMap_right _
  have covered := copying.covers
  rw [List.map_cons, List.flatMap_cons] at covered
  rw [List.map_append, List.map_reverse, List.zipIdx_map_fst, List.flatMap_append,
    List.append_assoc]
  refine List.Perm.trans (List.Perm.append_left _ ?_) covered
  rw [← List.append_assoc]
  exact ((turned.append_left _).trans opened.symm).append_right _

/-- Working off the pair on top: its children are paired with the next numbers and come to the top
in its place, the last one first. -/
theorem Copying.step (consistent : before.Consistent) (acyclic : before.Acyclic)
    {node number : NodeId} {after : Tree}
    (copying : before.Copying id sources ((node, number) :: pending) tree)
    (lists : tree.ListsCopies number (before.children node) after) :
    before.Copying id (sources ++ before.children node)
      (((before.children node).zipIdx tree.size).reverse ++ pending) after := by
  have paired := copying.paired (List.mem_cons_self (a := (node, number)) (l := pending))
  obtain ⟨isNew, numberKnown⟩ := copying.number_known paired
  have extended : (sources ++ before.children node).zipIdx before.size =
      sources.zipIdx before.size ++ (before.children node).zipIdx tree.size := by
    rw [List.zipIdx_append, copying.size_eq]
  constructor
  case size_eq => rw [lists.size_eq, copying.size_eq, List.length_append, Nat.add_assoc]
  case root_kept => rw [lists.root_kept, copying.root_kept]
  case old_kept =>
    intro other known
    have different : other ≠ number :=
      Nat.ne_of_lt (Nat.lt_of_lt_of_le (of_decide_eq_true known) isNew)
    rw [lists.others_kept other (contains_mono copying.grows known) different,
      copying.old_kept other known]
  case top =>
    rw [extended]
    exact List.mem_append_left _ copying.top
  case parentless => rw [lists.parent_of_old (copying.number_known copying.top).2, copying.parentless]
  case waiting =>
    rw [extended, List.reverse_append]
    exact (List.Sublist.refl _).append ((List.sublist_cons_self _ _).trans copying.waiting)
  case covers => exact copying.covers_children consistent acyclic
  case labelled =>
    intro source copy member
    rw [extended] at member
    rcases List.mem_append.1 member with earlier | new
    · obtain ⟨original, duplicate, found, held, same⟩ := copying.labelled source copy earlier
      obtain ⟨listed, kept⟩ := lists.same_but_children held
      exact ⟨original, _, found, kept, same⟩
    · obtain ⟨original, found, held⟩ := lists.made source copy new
      have listed := List.fst_mem_of_mem_zipIdx new
      rw [copying.old_kept source (consistent.child_known listed)] at found
      exact ⟨original, _, found, held, rfl, rfl, rfl, rfl⟩
  case childless =>
    intro source copy member
    rcases List.mem_append.1 member with new | waiting
    · obtain ⟨original, _, held⟩ := lists.made source copy (List.mem_reverse.1 new)
      rw [Tree.children, held]
      rfl
    · have earlier := copying.paired (List.mem_cons_of_mem (node, number) waiting)
      rw [lists.children_of_other (copying.number_known earlier).2 (copying.number_apart waiting)]
      exact copying.childless source copy (List.mem_cons_of_mem _ waiting)
  case linked =>
    intro source copy member done
    rw [extended] at member ⊢
    have notNew : (source, copy) ∈ sources.zipIdx before.size := by
      rcases List.mem_append.1 member with earlier | new
      · exact earlier
      · exact absurd (List.mem_append_left _ (List.mem_reverse.2 new)) done
    by_cases same : copy = number
    · -- This is the pair just worked off, whose copy had no children before.
      subst same
      have sameSource : source = node := source_unique notNew paired
      subst sameSource
      have childless := copying.childless source copy List.mem_cons_self
      apply (lists.linked childless numberKnown).imp
      intro child other new
      exact ⟨List.mem_append_right _ new.1, new.2⟩
    · have notPending : (source, copy) ∉ (node, number) :: pending := by
        intro waiting
        rcases List.mem_cons.1 waiting with top | behind
        · exact same (congrArg Prod.snd top)
        · exact done (List.mem_append_right _ behind)
      rw [lists.children_of_other (copying.number_known notNew).2 same]
      apply (copying.linked source copy notNew notPending).imp
      intro child other old
      rw [lists.parent_of_old (copying.number_known old.1).2]
      exact ⟨List.mem_append_left _ old.1, old.2⟩

theorem Copying.run (consistent : before.Consistent) (acyclic : before.Acyclic) (bound : Nat)
    (copying : before.Copying id sources pending tree)
    (enough : pending.length + ((pending.map Prod.fst).flatMap before.beneath).length ≤ bound) :
    ∃ all, before.Copying id all [] (copyPending bound pending tree) := by
  induction bound generalizing sources pending tree with
  | zero =>
      cases pending with
      | nil => exact ⟨sources, copying⟩
      | cons first rest => simp at enough
  | succ bound induction =>
      cases pending with
      | nil => exact ⟨sources, copying⟩
      | cons first rest =>
          obtain ⟨node, number⟩ := first
          obtain ⟨numbered, lists⟩ := copying.lists consistent
          have stepped := copying.step consistent acyclic lists
          have lengths := stepped.covers.length_eq.trans copying.covers.length_eq.symm
          rw [copyPending]
          dsimp only
          rw [numbered]
          apply induction stepped
          rw [List.length_append, List.length_append, List.length_append] at lengths
          rw [List.length_append, List.length_reverse, List.length_zipIdx]
          rw [List.length_cons] at enough
          omega

/-- The start: one copy, whose children are pending. -/
theorem copying_start (consistent : before.Consistent) (acyclic : before.Acyclic) {original : Node}
    (found : before.node? id = some original) (known : before.contains id = true) :
    before.Copying id [id] [(id, before.size)]
      (before.push none original.rule original.text original.span) := by
  have fresh : (before.push none original.rule original.text original.span).node? before.size =
      some ⟨before.size, original.rule, original.text, original.span, none, []⟩ := by
    rw [node_push, if_pos rfl]
  have alone : ∀ node number, (node, number) ∈ [id].zipIdx before.size →
      node = id ∧ number = before.size := by
    intro node number member
    simpa using member
  refine ⟨size_push none _ _ _, rfl, ?_, by simp, ?_, List.Sublist.refl _, ?_, ?_, ?_, ?_⟩
  · intro node nodeKnown
    rw [node_push, if_neg (Nat.ne_of_lt (of_decide_eq_true nodeKnown))]
  · rw [parent?, fresh]
    rfl
  · have unfolded := subtree_unfold consistent acyclic known
    rw [unfolded]
    simp [beneath]
  · intro node number member
    obtain ⟨rfl, rfl⟩ := alone node number member
    exact ⟨original, _, found, fresh, rfl, rfl, rfl, rfl⟩
  · intro node number member
    obtain ⟨rfl, rfl⟩ := alone node number member
    rw [Tree.children, fresh]
    rfl
  · intro node number member done
    exact absurd member done

def numberOf (start : NodeId) (sources : List NodeId) (node : NodeId) : NodeId :=
  start + sources.idxOf node

theorem paired_iff (nodup : sources.Nodup) {start node number : NodeId} :
    (node, number) ∈ sources.zipIdx start ↔ node ∈ sources ∧ numberOf start sources node = number := by
  constructor
  · intro member
    obtain ⟨lower, found⟩ := List.mk_mem_zipIdx_iff_le_and_getElem?_sub.1 member
    obtain ⟨inside, same⟩ := List.getElem?_eq_some_iff.1 found
    have position : sources.idxOf node = number - start := by
      rw [← same]
      exact nodup.idxOf_getElem _ inside
    refine ⟨List.mem_of_getElem? found, ?_⟩
    rw [numberOf, position]
    exact Nat.add_sub_cancel' lower
  · rintro ⟨listed, rfl⟩
    rw [List.mk_mem_zipIdx_iff_le_and_getElem?_sub, numberOf, Nat.add_sub_cancel_left]
    exact ⟨Nat.le_add_right _ _, List.getElem?_idxOf listed⟩

theorem Copying.sources_nodup (consistent : before.Consistent) (acyclic : before.Acyclic)
    (copying : before.Copying id sources [] tree) : sources.Nodup := by
  have covered := copying.covers
  rw [List.map_nil, List.flatMap_nil, List.append_nil] at covered
  exact covered.nodup_iff.2 (subtree_within_nodup consistent acyclic before.size id)

section Finished

variable {after : Tree} (consistent : before.Consistent) (acyclic : before.Acyclic)
  (known : before.contains id = true) (copying : before.Copying id sources [] after)
include consistent acyclic known copying

theorem Copying.paired_iff_reaches {node number : NodeId} :
    (node, number) ∈ sources.zipIdx before.size ↔
      Relation.ReflTransGen before.IsChild id node ∧ numberOf before.size sources node = number := by
  have covered := copying.covers
  rw [List.map_nil, List.flatMap_nil, List.append_nil] at covered
  rw [paired_iff (copying.sources_nodup consistent acyclic), covered.mem_iff,
    mem_subtree_iff consistent acyclic known]

theorem Copying.paired_number {node : NodeId}
    (reaches : Relation.ReflTransGen before.IsChild id node) :
    (node, numberOf before.size sources node) ∈ sources.zipIdx before.size :=
  (copying.paired_iff_reaches consistent acyclic known).2 ⟨reaches, rfl⟩

theorem Copying.children_of_copy {node number : NodeId}
    (paired : (node, number) ∈ sources.zipIdx before.size) :
    (∀ child ∈ before.children node,
        after.parent? (numberOf before.size sources child) = some number) ∧
      after.children number = (before.children node).map (numberOf before.size sources) := by
  have linked : List.Forall₂ (fun child copy =>
      after.parent? (numberOf before.size sources child) = some number ∧
        numberOf before.size sources child = copy) (before.children node) (after.children number) := by
    refine (copying.linked node number paired List.not_mem_nil).imp ?_
    rintro child copy ⟨there, recorded⟩
    obtain ⟨_, same⟩ := (copying.paired_iff_reaches consistent acyclic known).1 there
    rw [same]
    exact ⟨recorded, rfl⟩
  obtain ⟨parents, copies⟩ := (List.forall₂_and_left _ _).1 linked
  refine ⟨parents, ?_⟩
  rw [← List.forall₂_map_left_iff, List.forall₂_eq_eq_eq] at copies
  exact copies.symm

theorem Copying.reaches_number {node : NodeId}
    (reaches : Relation.ReflTransGen before.IsChild id node) :
    Relation.ReflTransGen after.IsChild before.size (numberOf before.size sources node) := by
  induction reaches with
  | refl =>
      rw [((copying.paired_iff_reaches consistent acyclic known).1 copying.top).2]
  | tail reaches listed induction =>
      refine induction.tail ?_
      have copied := (copying.children_of_copy consistent acyclic known
        (copying.paired_number consistent acyclic known reaches)).2
      rw [IsChild, copied]
      exact List.mem_map_of_mem listed

theorem Copying.paired_of_reaches {number : NodeId}
    (reaches : Relation.ReflTransGen after.IsChild before.size number) :
    ∃ node, (node, number) ∈ sources.zipIdx before.size := by
  induction reaches with
  | refl => exact ⟨id, copying.top⟩
  | tail _ listed induction =>
      obtain ⟨node, paired⟩ := induction
      have copied := (copying.children_of_copy consistent acyclic known paired).2
      rw [IsChild, copied] at listed
      obtain ⟨child, childListed, rfl⟩ := List.mem_map.1 listed
      have below := ((copying.paired_iff_reaches consistent acyclic known).1 paired).1.tail childListed
      exact ⟨child, copying.paired_number consistent acyclic known below⟩

theorem Copying.duplicates :
    before.Duplicates id (numberOf before.size sources) before.size after where
  old_kept := copying.old_kept
  root_kept := copying.root_kept
  top := ((copying.paired_iff_reaches consistent acyclic known).1 copying.top).2
  parentless := copying.parentless
  fresh number := by
    constructor
    · intro reaches
      obtain ⟨node, paired⟩ := copying.paired_of_reaches consistent acyclic known reaches
      obtain ⟨isNew, numberKnown⟩ := copying.number_known paired
      exact ⟨numberKnown, decide_eq_false (Nat.not_lt.2 isNew)⟩
    · rintro ⟨numberKnown, isNew⟩
      have lower : before.size ≤ number := Nat.not_lt.1 (of_decide_eq_false isNew)
      have inside : number - before.size < sources.length := by
        apply Nat.sub_lt_left_of_lt_add lower
        rw [← copying.size_eq]
        exact of_decide_eq_true numberKnown
      have paired : (sources[number - before.size], number) ∈ sources.zipIdx before.size :=
        List.mk_mem_zipIdx_iff_le_and_getElem?_sub.2 ⟨lower, List.getElem?_eq_getElem inside⟩
      obtain ⟨reaches, same⟩ := (copying.paired_iff_reaches consistent acyclic known).1 paired
      rw [← same]
      exact copying.reaches_number consistent acyclic known reaches
  bijective := by
    refine ⟨?_, ?_, ?_⟩
    · intro node reaches
      exact copying.reaches_number consistent acyclic known reaches
    · intro first firstReaches second secondReaches same
      have firstPaired := copying.paired_number consistent acyclic known firstReaches
      have secondPaired := copying.paired_number consistent acyclic known secondReaches
      rw [same] at firstPaired
      exact source_unique firstPaired secondPaired
    · intro number reaches
      obtain ⟨node, paired⟩ := copying.paired_of_reaches consistent acyclic known reaches
      exact ⟨node, (copying.paired_iff_reaches consistent acyclic known).1 paired⟩
  same_label node original reaches found := by
    obtain ⟨source, duplicate, issued, held, same⟩ :=
      copying.labelled node _ (copying.paired_number consistent acyclic known reaches)
    rw [found] at issued
    cases issued
    exact ⟨duplicate, held, same⟩
  same_children node reaches :=
    (copying.children_of_copy consistent acyclic known
      (copying.paired_number consistent acyclic known reaches)).2
  parent_copied node child reaches listed :=
    (copying.children_of_copy consistent acyclic known
      (copying.paired_number consistent acyclic known reaches)).1 child listed

end Finished

end Copying

theorem deep_copy_duplicates (consistent : before.Consistent) (acyclic : before.Acyclic)
    {id : NodeId} (known : before.contains id = true) :
    ∃ copied after, (TreeEdit.deepCopy id).run.run before = (.ok copied, after) ∧
      ∃ copy, before.Duplicates id copy copied after := by
  obtain ⟨original, found⟩ := node_of_known known
  have ran : (TreeEdit.deepCopy id).run.run before = (.ok before.size,
      (before.push none original.rule original.text original.span).copyPending before.size
        [(id, before.size)]) := by
    unfold TreeEdit.deepCopy
    rw [run_bind, TreeEdit.require_node_passes known]
    dsimp only
    rw [run_bind, TreeEdit.run_get]
    dsimp only
    rw [found]
    rfl
  have start := copying_start consistent acyclic found known
  have enough : [(id, before.size)].length +
      (([(id, before.size)].map Prod.fst).flatMap before.beneath).length ≤ before.size := by
    have short := subtree_length_le consistent acyclic known
    have same := start.covers.length_eq
    rw [List.length_append] at same
    rw [List.length_singleton] at same ⊢
    omega
  obtain ⟨sources, copying⟩ := start.run consistent acyclic before.size enough
  exact ⟨_, _, ran, _, copying.duplicates consistent acyclic known⟩

/-- Whatever calls have built a tree, if no node lies below itself, copying a node that it knows goes
through, and what comes out is a copy of the subtree: new nodes only, all of them below the new top,
with the rules, texts, spans and lists of the old ones, while every old node and the root stay as
they were. -/
theorem Reachable.deep_copy_yields_duplicate (reachable : before.Reachable)
    (acyclic : before.Acyclic) {id : NodeId} (known : before.contains id = true) :
    ∃ copied after, (TreeEdit.deepCopy id).run.run before = (.ok copied, after) ∧
      ∃ copy, before.Duplicates id copy copied after :=
  deep_copy_duplicates reachable.wellFormed.toConsistent acyclic known

/-- A definition with a block of two statements. The comment records the definition as its parent and
is not listed there. -/
def commentedDefinition : Tree :=
  let span : Span := ⟨0, 0, 1, 0⟩
  [EditCall.addNode none "module" "m" span, .pushChild 0 "def" "d" span,
    .pushChild 1 "name" "f" span, .pushChild 1 "block" "b" span, .pushChild 3 "pass" "p" span,
    .pushChild 3 "return" "r" span, .addNode (some 1) "comment" "c" span].foldl EditCall.leaves .empty

/-- The children of the definition get the first numbers, then those of the block; the comment is not
copied. -/
theorem commented_definition_copied :
    commentedDefinition.Reachable ∧ commentedDefinition.Acyclic ∧
      commentedDefinition.contains 1 = true ∧
      ∃ copied after, (TreeEdit.deepCopy 1).run.run commentedDefinition = (.ok copied, after) ∧
        (∃ copy, commentedDefinition.Duplicates 1 copy copied after) ∧
        (after.nodes.toList.drop 7).map (fun node => (node.rule, node.parent, node.children)) =
          [("def", none, [8, 9]), ("name", some 7, []), ("block", some 7, [10, 11]),
            ("pass", some 9, []), ("return", some 9, [])] := by
  have reachable : commentedDefinition.Reachable := Reachable.empty.afterCalls _
  have acyclic : commentedDefinition.Acyclic := acyclic_of_downward (by decide)
  have known : commentedDefinition.contains 1 = true := by decide
  obtain ⟨copied, after, ran, duplicate⟩ := reachable.deep_copy_yields_duplicate acyclic known
  have left : after = ((TreeEdit.deepCopy 1).run.run commentedDefinition).2 := by rw [ran]
  refine ⟨reachable, acyclic, known, copied, after, ran, duplicate, ?_⟩
  rw [left]
  decide +kernel

end Tree

end SyntaxGraph
