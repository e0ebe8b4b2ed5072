import Mathlib.Data.List.Induction
import Mathlib.Data.List.Perm.Subperm
import SyntaxGraph.Proofs.Tree.Postorder
import SyntaxGraph.Tree.BottomUp

/-!
The order in which a tree is worked off from its leaves upwards. Which node comes next is settled by
the queue and the counts of children alone. While the queue is worked off, the nodes that are done
or queued are the reachable ones whose children are done, and every count is the number of children
still to come; hence the queue runs dry only when every reachable node is done. The root comes last. What it
records as its parent has no count, or nothing left to count.
-/

set_option autoImplicit false

namespace SyntaxGraph

theorem NodeValues.find?_set {Value : Type} (values : NodeValues Value) (id : NodeId)
    (value : Option Value) (node : NodeId) :
    NodeValues.find? (values.setIfInBounds id value) node =
      if node = id ∧ id < values.size then value else NodeValues.find? values node := by
  rw [find?, find?, Array.getElem?_setIfInBounds]
  by_cases same : id = node
  · subst same
    by_cases inside : id < values.size
    · simp [inside]
    · simp [inside]
  · simp [same, Ne.symm same]

theorem NodeValues.size_of_found {Value : Type} {values : NodeValues Value} {id : NodeId}
    {value : Value} (found : NodeValues.find? values id = some value) : id < values.size := by
  by_contra outside
  simp [find?, Array.getElem?_eq_none (Nat.not_lt.1 outside)] at found

theorem NodeValues.find?_nothing {Value : Type} (size : Nat) (node : NodeId) :
    NodeValues.find? (Array.replicate size (none : Option Value)) node = none := by
  rw [find?, Array.getElem?_replicate]
  split <;> rfl

namespace Tree

def visits (tree : Tree) : Nat → List NodeId → NodeValues Nat → List NodeId
  | 0, _, _ => []
  | _ + 1, [], _ => []
  | bound + 1, id :: queue, counts =>
      match countOff counts (tree.parent? id) with
      | .error _ => [id]
      | .ok (counts, ready) => id :: tree.visits bound (queue ++ ready) counts

/-- The failure of the counts that breaks off the work, if there is one. -/
def miscount? (tree : Tree) : Nat → List NodeId → NodeValues Nat → Option ProcessingFailure
  | 0, _, _ => none
  | _ + 1, [], _ => none
  | bound + 1, id :: queue, counts =>
      match countOff counts (tree.parent? id) with
      | .error failure => some failure
      | .ok (counts, ready) => tree.miscount? bound (queue ++ ready) counts

/-- Every node comes after its children. -/
def ChildrenBefore (tree : Tree) (order : List NodeId) : Prop :=
  ∀ earlier node later, order = earlier ++ node :: later →
    ∀ child ∈ tree.children node, child ∈ earlier

/-- Every reachable node comes once, after its children, and no other node comes. -/
structure ChildrenFirst (tree : Tree) (order : List NodeId) : Prop where
  nodup : order.Nodup
  mem_iff : ∀ node, node ∈ order ↔ node ∈ tree.preorder
  children_before : tree.ChildrenBefore order

/-- The root records a node as its parent to which it leads itself. -/
def RootBelow (tree : Tree) (parent : NodeId) : Prop :=
  ∃ root, tree.root = some root ∧ tree.parent? root = some parent ∧
    Relation.ReflTransGen tree.IsChild root parent

/-- The recorded parent of the root is neither the root nor below it. That it is not the root itself
goes without saying where edits built the tree and no node is below itself. -/
def RootApart (tree : Tree) : Prop := ∀ parent, ¬tree.RootBelow parent

/-- The children of a node that are still to come. -/
def outstanding (tree : Tree) (done : List NodeId) (node : NodeId) : List NodeId :=
  (tree.children node).filter (· ∉ done)

/-- Where the work stands: what is done, what is queued and what is counted. -/
structure Progress (tree : Tree) (done queue : List NodeId) (counts : NodeValues Nat) : Prop where
  nodup : (done ++ queue).Nodup
  ready_iff : ∀ node, node ∈ done ++ queue ↔
    node ∈ tree.preorder ∧ tree.outstanding done node = []
  counted : ∀ node ∈ tree.preorder,
    NodeValues.find? counts node = some (tree.outstanding done node).length
  uncounted : ∀ node, node ∉ tree.preorder → NodeValues.find? counts node = none
  children_before : tree.ChildrenBefore done

/-- What counting a node off leaves: the counts, and the parents that have just become ready. -/
structure CountedOff (tree : Tree) (done : List NodeId) (id : NodeId)
    (left : NodeValues Nat × List NodeId) : Prop where
  ready_nodup : left.2.Nodup
  ready_iff : ∀ node, node ∈ left.2 ↔ node ∈ tree.preorder ∧ id ∈ tree.children node ∧
    tree.outstanding (done ++ [id]) node = []
  counted : ∀ node ∈ tree.preorder,
    NodeValues.find? left.1 node = some (tree.outstanding (done ++ [id]) node).length
  uncounted : ∀ node, node ∉ tree.preorder → NodeValues.find? left.1 node = none

variable {tree : Tree}

-- Reachable nodes

theorem mem_preorder_iff_reaches (consistent : tree.Consistent) (acyclic : tree.Acyclic)
    {node : NodeId} :
    node ∈ tree.preorder ↔
      ∃ root, tree.root = some root ∧ Relation.ReflTransGen tree.IsChild root node := by
  cases rooted : tree.root with
  | none => simp [preorder_of_rootless rooted]
  | some root =>
      rw [preorder_eq_subtree consistent acyclic rooted,
        mem_subtree_iff consistent acyclic (consistent.root_known root rooted)]
      simp

theorem known_of_mem_preorder (consistent : tree.Consistent) (acyclic : tree.Acyclic)
    {node : NodeId} (reached : node ∈ tree.preorder) : node < tree.size := by
  obtain ⟨root, rooted, reaches⟩ := (mem_preorder_iff_reaches consistent acyclic).1 reached
  exact of_decide_eq_true (consistent.known_of_reaches (consistent.root_known root rooted) reaches)

theorem child_mem_preorder (consistent : tree.Consistent) (acyclic : tree.Acyclic)
    {parent child : NodeId} (reached : parent ∈ tree.preorder)
    (listed : child ∈ tree.children parent) : child ∈ tree.preorder := by
  obtain ⟨root, rooted, reaches⟩ := (mem_preorder_iff_reaches consistent acyclic).1 reached
  exact (mem_preorder_iff_reaches consistent acyclic).2 ⟨root, rooted, reaches.tail listed⟩

theorem root_or_listed (consistent : tree.Consistent) (acyclic : tree.Acyclic) {node : NodeId}
    (reached : node ∈ tree.preorder) :
    tree.root = some node ∨ ∃ parent ∈ tree.preorder, node ∈ tree.children parent := by
  obtain ⟨root, rooted, reaches⟩ := (mem_preorder_iff_reaches consistent acyclic).1 reached
  rcases Relation.ReflTransGen.cases_tail reaches with same | ⟨parent, toParent, listed⟩
  · left
    rw [rooted, same]
  · right
    exact ⟨parent, (mem_preorder_iff_reaches consistent acyclic).2 ⟨root, rooted, toParent⟩, listed⟩

theorem root_unlisted (consistent : tree.Consistent) (acyclic : tree.Acyclic) {root node : NodeId}
    (rooted : tree.root = some root) (reached : node ∈ tree.preorder) :
    root ∉ tree.children node := by
  intro listed
  obtain ⟨top, topRooted, reaches⟩ := (mem_preorder_iff_reaches consistent acyclic).1 reached
  rw [Option.some.inj (topRooted.symm.trans rooted)] at reaches
  exact acyclic root (Relation.TransGen.tail' reaches listed)

-- Counting off

theorem outstanding_unlisted {done : List NodeId} {id node : NodeId}
    (unlisted : id ∉ tree.children node) :
    tree.outstanding (done ++ [id]) node = tree.outstanding done node := by
  apply List.filter_congr
  intro child listed
  have different : child ≠ id := fun same => unlisted (same ▸ listed)
  simp [different]

theorem length_outstanding_listed (consistent : tree.Consistent) {done : List NodeId}
    {id node : NodeId} (listed : id ∈ tree.children node) (new : id ∉ done) :
    (tree.outstanding done node).length = (tree.outstanding (done ++ [id]) node).length + 1 := by
  have awaited : id ∈ tree.outstanding done node := by simp [outstanding, listed, new]
  have removed : tree.outstanding (done ++ [id]) node = (tree.outstanding done node).erase id := by
    have nodup : (tree.outstanding done node).Nodup := (consistent.children_nodup node).filter _
    rw [nodup.erase_eq_filter, outstanding, outstanding, List.filter_filter]
    apply List.filter_congr
    intro child _
    by_cases same : child = id <;> simp [same]
  have positive := List.length_pos_of_mem awaited
  rw [removed, List.length_erase_of_mem awaited]
  omega

theorem outstanding_eq_nil_iff {done : List NodeId} {node : NodeId} :
    tree.outstanding done node = [] ↔ ∀ child ∈ tree.children node, child ∈ done := by
  simp [outstanding, List.filter_eq_nil_iff]

theorem count_off_last {counts : NodeValues Nat} {parent : NodeId} {rest : Nat}
    (found : NodeValues.find? counts parent = some (rest + 1)) :
    countOff counts (some parent) =
      .ok (counts.setIfInBounds parent (some rest), if rest = 0 then [parent] else []) := by
  cases rest with
  | zero => simp [countOff, found]
  | succ rest => simp [countOff, found]

theorem Progress.not_done {done queue : List NodeId} {counts : NodeValues Nat} {id : NodeId}
    (progress : tree.Progress done (id :: queue) counts) : id ∉ done := by
  intro old
  exact (List.nodup_append.1 progress.nodup).2.2 id old id (by simp) rfl

theorem ChildrenBefore.below {done : List NodeId} (before : tree.ChildrenBefore done)
    {top node : NodeId} (finished : ∀ child ∈ tree.children top, child ∈ done)
    (reaches : Relation.TransGen tree.IsChild top node) : node ∈ done := by
  induction reaches with
  | single listed => exact finished _ listed
  | tail _ listed member =>
      obtain ⟨earlier, later, split⟩ := List.append_of_mem member
      rw [split]
      exact List.mem_append_left _ (before earlier _ later split _ listed)

theorem Progress.parent_counts (consistent : tree.Consistent) {done queue : List NodeId}
    {counts : NodeValues Nat} {id parent : NodeId}
    (progress : tree.Progress done (id :: queue) counts) (parentReached : parent ∈ tree.preorder)
    (listed : id ∈ tree.children parent) :
    NodeValues.find? counts parent =
      some ((tree.outstanding (done ++ [id]) parent).length + 1) := by
  rw [progress.counted parent parentReached,
    length_outstanding_listed consistent listed progress.not_done]

/-- A finished child leads to its parent if it was the last one, and the counts follow. -/
theorem Progress.counted_off_child (consistent : tree.Consistent) {done queue : List NodeId}
    {counts : NodeValues Nat} {id parent : NodeId}
    (progress : tree.Progress done (id :: queue) counts) (parentReached : parent ∈ tree.preorder)
    (listed : id ∈ tree.children parent) :
    ∃ left, countOff counts (tree.parent? id) = .ok left ∧ tree.CountedOff done id left := by
  have recorded := consistent.parent_of_child parent id listed
  have unlisted : ∀ node, node ≠ parent → id ∉ tree.children node := by
    intro node different nodeListed
    have same := (consistent.parent_of_child node id nodeListed).symm.trans recorded
    exact different (Option.some.inj same)
  have count := progress.parent_counts consistent parentReached listed
  have inside := NodeValues.size_of_found count
  rw [recorded]
  refine ⟨_, count_off_last count, ?_, ?_, ?_, ?_⟩
  · dsimp only
    split <;> simp
  · intro node
    by_cases same : node = parent
    · subst same
      simp [parentReached, listed, ← List.length_eq_zero_iff]
    · simp [same, unlisted node same]
  · intro node nodeReached
    rw [NodeValues.find?_set]
    by_cases same : node = parent
    · simp [same, inside]
    · rw [if_neg (fun both => same both.1), outstanding_unlisted (unlisted node same)]
      exact progress.counted node nodeReached
  · intro node unreached
    have different : node ≠ parent := fun same => unreached (same ▸ parentReached)
    rw [NodeValues.find?_set, if_neg (fun both => different both.1)]
    exact progress.uncounted node unreached

-- The queue

theorem ChildrenBefore.concat {done : List NodeId} {id : NodeId}
    (before : tree.ChildrenBefore done) (finished : ∀ child ∈ tree.children id, child ∈ done) :
    tree.ChildrenBefore (done ++ [id]) := by
  intro earlier node later split
  rcases List.eq_nil_or_concat' later with none_later | ⟨between, last, split_later⟩
  · rw [none_later] at split
    obtain ⟨sameDone, sameNode⟩ := List.append_inj' split rfl
    rw [← sameDone, ← List.singleton_inj.1 sameNode]
    exact finished
  · rw [split_later, ← List.cons_append, ← List.append_assoc] at split
    exact before earlier node between (List.append_inj' split rfl).1

theorem visits_nil (bound : Nat) (counts : NodeValues Nat) : tree.visits bound [] counts = [] := by
  cases bound <;> rfl

theorem miscount_nil (bound : Nat) (counts : NodeValues Nat) :
    tree.miscount? bound [] counts = none := by
  cases bound <;> rfl

theorem visits_counted {bound : Nat} {id : NodeId} {queue : List NodeId} {counts : NodeValues Nat}
    {left : NodeValues Nat × List NodeId} (off : countOff counts (tree.parent? id) = .ok left) :
    tree.visits (bound + 1) (id :: queue) counts = id :: tree.visits bound (queue ++ left.2) left.1 := by
  rw [visits, off]

theorem miscount_counted {bound : Nat} {id : NodeId} {queue : List NodeId}
    {counts : NodeValues Nat} {left : NodeValues Nat × List NodeId}
    (off : countOff counts (tree.parent? id) = .ok left) :
    tree.miscount? (bound + 1) (id :: queue) counts =
      tree.miscount? bound (queue ++ left.2) left.1 := by
  rw [miscount?, off]

theorem Progress.step {done queue : List NodeId} {counts : NodeValues Nat} {id : NodeId}
    (progress : tree.Progress done (id :: queue) counts) {left : NodeValues Nat × List NodeId}
    (counted : tree.CountedOff done id left) :
    tree.Progress (done ++ [id]) (queue ++ left.2) left.1 := by
  have finished := outstanding_eq_nil_iff.1 ((progress.ready_iff id).1 (by simp)).2
  -- A node that has just become ready was waiting for this one.
  have waiting : ∀ node, id ∈ tree.children node → node ∉ done ++ id :: queue := by
    intro node listed member
    exact progress.not_done (outstanding_eq_nil_iff.1 ((progress.ready_iff node).1 member).2 id listed)
  have regroup : (done ++ [id]) ++ (queue ++ left.2) = (done ++ id :: queue) ++ left.2 := by simp
  refine ⟨?_, ?_, counted.counted, counted.uncounted, progress.children_before.concat finished⟩
  · rw [regroup]
    refine List.nodup_append.2 ⟨progress.nodup, counted.ready_nodup, ?_⟩
    intro node member other ready same
    rw [← same] at ready
    exact waiting node ((counted.ready_iff node).1 ready).2.1 member
  · intro node
    rw [regroup, List.mem_append, counted.ready_iff, progress.ready_iff]
    by_cases listed : id ∈ tree.children node
    · have unready : ¬(node ∈ tree.preorder ∧ tree.outstanding done node = []) :=
        fun ready => waiting node listed ((progress.ready_iff node).2 ready)
      simp [unready, listed]
    · rw [outstanding_unlisted listed]
      simp [listed]

/-- An empty queue leaves nothing to do: a node whose children are done is done itself, and so on
up to the root. -/
theorem Progress.all_done (consistent : tree.Consistent) (acyclic : tree.Acyclic)
    {done : List NodeId} {counts : NodeValues Nat} (progress : tree.Progress done [] counts)
    {node : NodeId} (reached : node ∈ tree.preorder) : node ∈ done := by
  have known := decide_eq_true (known_of_mem_preorder consistent acyclic reached)
  revert reached
  refine consistent.from_leaves acyclic (fun node _ below nodeReached => ?_) known
  have finished : tree.outstanding done node = [] :=
    outstanding_eq_nil_iff.2 fun child listed =>
      below child listed (child_mem_preorder consistent acyclic nodeReached listed)
  simpa using (progress.ready_iff node).2 ⟨nodeReached, finished⟩

theorem Progress.perm_of_full {done queue : List NodeId} {counts : NodeValues Nat}
    (progress : tree.Progress done queue counts) (full : tree.preorder.length ≤ done.length) :
    done.Perm tree.preorder := by
  have doneNodup : done.Nodup := (List.nodup_append.1 progress.nodup).1
  have inside : done ⊆ tree.preorder := fun node member =>
    ((progress.ready_iff node).1 (List.mem_append_left _ member)).1
  exact (List.subperm_of_subset doneNodup inside).perm_of_length_le full

-- The root

theorem Progress.nothing_outstanding (consistent : tree.Consistent) (acyclic : tree.Acyclic)
    {done queue : List NodeId} {counts : NodeValues Nat} {root : NodeId}
    (progress : tree.Progress done (root :: queue) counts) (rooted : tree.root = some root) :
    ∀ node ∈ tree.preorder, tree.outstanding done node = [] := by
  intro node reached
  obtain ⟨top, topRooted, reaches⟩ := (mem_preorder_iff_reaches consistent acyclic).1 reached
  rw [Option.some.inj (topRooted.symm.trans rooted)] at reaches
  have finished := outstanding_eq_nil_iff.1 ((progress.ready_iff root).1 (by simp)).2
  exact outstanding_eq_nil_iff.2 fun child listed =>
    progress.children_before.below finished (Relation.TransGen.tail' reaches listed)

theorem Progress.mem_iff_at_root (consistent : tree.Consistent) (acyclic : tree.Acyclic)
    {done queue : List NodeId} {counts : NodeValues Nat} {root : NodeId}
    (progress : tree.Progress done (root :: queue) counts) (rooted : tree.root = some root)
    (node : NodeId) : node ∈ done ++ root :: queue ↔ node ∈ tree.preorder := by
  rw [progress.ready_iff]
  exact ⟨And.left, fun reached =>
    ⟨reached, progress.nothing_outstanding consistent acyclic rooted node reached⟩⟩

/-- With the root at hand all other nodes are done, so nothing is queued behind it. -/
theorem Progress.root_last (consistent : tree.Consistent) (acyclic : tree.Acyclic)
    {done queue : List NodeId} {counts : NodeValues Nat} {root : NodeId}
    (progress : tree.Progress done (root :: queue) counts) (rooted : tree.root = some root) :
    queue = [] := by
  have finished := outstanding_eq_nil_iff.1 ((progress.ready_iff root).1 (by simp)).2
  have nodup := progress.nodup
  apply List.eq_nil_iff_forall_not_mem.2
  intro node queued
  have reached :=
    (progress.mem_iff_at_root consistent acyclic rooted node).1 (by simp [queued])
  obtain ⟨top, topRooted, reaches⟩ := (mem_preorder_iff_reaches consistent acyclic).1 reached
  rw [Option.some.inj (topRooted.symm.trans rooted)] at reaches
  rcases Relation.reflTransGen_iff_eq_or_transGen.1 reaches with same | below
  · rw [same] at queued
    exact (List.nodup_cons.1 (List.nodup_append.1 nodup).2.1).1 queued
  · have earlier := progress.children_before.below finished below
    exact (List.nodup_append.1 nodup).2.2 node earlier node (by simp [queued]) rfl

/-- Nothing is left to count of a node that the root leads to, and other nodes have no count. -/
theorem Progress.count_off_root (consistent : tree.Consistent) (acyclic : tree.Acyclic)
    {done queue : List NodeId} {counts : NodeValues Nat} {root : NodeId}
    (progress : tree.Progress done (root :: queue) counts) (rooted : tree.root = some root) :
    (∃ parent, tree.RootBelow parent ∧
      countOff counts (tree.parent? root) = .error (.overflow parent)) ∨
    (tree.RootApart ∧ countOff counts (tree.parent? root) = .ok (counts, [])) := by
  cases recorded : tree.parent? root with
  | none =>
      refine Or.inr ⟨?_, rfl⟩
      rintro parent ⟨top, topRooted, recordedToo, -⟩
      cases rooted.symm.trans topRooted
      cases recorded.symm.trans recordedToo
  | some parent =>
      by_cases reached : parent ∈ tree.preorder
      · left
        obtain ⟨top, topRooted, reaches⟩ := (mem_preorder_iff_reaches consistent acyclic).1 reached
        cases rooted.symm.trans topRooted
        have count := progress.counted parent reached
        rw [progress.nothing_outstanding consistent acyclic rooted parent reached] at count
        exact ⟨parent, ⟨root, rooted, recorded, reaches⟩, by simp [countOff, count]⟩
      · right
        refine ⟨?_, by simp [countOff, progress.uncounted parent reached]⟩
        rintro other ⟨top, topRooted, recordedToo, reaches⟩
        cases rooted.symm.trans topRooted
        cases recorded.symm.trans recordedToo
        exact reached ((mem_preorder_iff_reaches consistent acyclic).2 ⟨root, rooted, reaches⟩)

/-- What working off comes to: an order with children first, and a failure of the counts exactly where
the root leads to the parent that it records. -/
structure WorksOff (tree : Tree) (order : List NodeId) (miscount : Option ProcessingFailure) :
    Prop where
  children_first : tree.ChildrenFirst order
  miscount_iff : ∀ failure, miscount = some failure ↔
    ∃ parent, tree.RootBelow parent ∧ failure = .overflow parent

theorem RootBelow.unique {parent other : NodeId} (below : tree.RootBelow parent)
    (also : tree.RootBelow other) : other = parent := by
  obtain ⟨root, rooted, recorded, -⟩ := below
  obtain ⟨top, topRooted, recordedToo, -⟩ := also
  cases rooted.symm.trans topRooted
  exact (Option.some.inj (recorded.symm.trans recordedToo)).symm

theorem Progress.works_off_root (consistent : tree.Consistent) (acyclic : tree.Acyclic)
    {done queue : List NodeId} {counts : NodeValues Nat} {root : NodeId}
    (progress : tree.Progress done (root :: queue) counts) (rooted : tree.root = some root)
    (bound : Nat) :
    tree.WorksOff (done ++ tree.visits (bound + 1) (root :: queue) counts)
      (tree.miscount? (bound + 1) (root :: queue) counts) := by
  cases progress.root_last consistent acyclic rooted
  have first : tree.ChildrenFirst (done ++ [root]) :=
    ⟨progress.nodup, progress.mem_iff_at_root consistent acyclic rooted,
      progress.children_before.concat
        (outstanding_eq_nil_iff.1 ((progress.ready_iff root).1 (by simp)).2)⟩
  rcases progress.count_off_root consistent acyclic rooted with ⟨parent, below, off⟩ | ⟨apart, off⟩
  · rw [visits, miscount?, off]
    refine ⟨first, fun failure => ⟨?_, ?_⟩⟩
    · intro same
      exact ⟨parent, below, (Option.some.inj same).symm⟩
    · rintro ⟨other, also, rfl⟩
      rw [below.unique also]
  · rw [visits_counted off, miscount_counted off, List.append_nil, visits_nil, miscount_nil]
    refine ⟨first, fun failure => ⟨nofun, ?_⟩⟩
    rintro ⟨parent, below, -⟩
    exact absurd below (apart parent)

theorem ChildrenFirst.works_off (consistent : tree.Consistent) (acyclic : tree.Acyclic)
    {done : List NodeId} (first : tree.ChildrenFirst done)
    (root_waits : ∀ root, tree.root = some root → root ∉ done) : tree.WorksOff done none := by
  refine ⟨first, fun failure => ⟨nofun, ?_⟩⟩
  rintro ⟨parent, ⟨root, rooted, -⟩, -⟩
  have reached : root ∈ tree.preorder :=
    (mem_preorder_iff_reaches consistent acyclic).2 ⟨root, rooted, Relation.ReflTransGen.refl⟩
  exact absurd ((first.mem_iff root).2 reached) (root_waits root rooted)

theorem Progress.works_off (consistent : tree.Consistent) (acyclic : tree.Acyclic) (bound : Nat)
    {done queue : List NodeId} {counts : NodeValues Nat}
    (progress : tree.Progress done queue counts)
    (root_waits : ∀ root, tree.root = some root → root ∉ done)
    (enough : tree.preorder.length ≤ done.length + bound) :
    tree.WorksOff (done ++ tree.visits bound queue counts) (tree.miscount? bound queue counts) := by
  induction bound generalizing done queue counts with
  | zero =>
      have same := progress.perm_of_full enough
      rw [visits, List.append_nil]
      exact ChildrenFirst.works_off consistent acyclic ⟨(List.nodup_append.1 progress.nodup).1,
        fun node => same.mem_iff, progress.children_before⟩ root_waits
  | succ bound induction =>
      cases queue with
      | nil =>
          have doneNodup := progress.nodup
          rw [List.append_nil] at doneNodup
          rw [visits, List.append_nil]
          refine ChildrenFirst.works_off consistent acyclic ⟨doneNodup, fun node => ⟨fun member => ?_,
            progress.all_done consistent acyclic⟩, progress.children_before⟩ root_waits
          exact ((progress.ready_iff node).1 (List.mem_append_left _ member)).1
      | cons id queue =>
          have reached := ((progress.ready_iff id).1 (by simp)).1
          rcases root_or_listed consistent acyclic reached with
            rooted | ⟨parent, parentReached, listed⟩
          · exact progress.works_off_root consistent acyclic rooted bound
          · obtain ⟨left, off, counted⟩ :=
              progress.counted_off_child consistent parentReached listed
            have waits : ∀ root, tree.root = some root → root ∉ done ++ [id] := by
              intro root rooted member
              rcases List.mem_append.1 member with earlier | last
              · exact root_waits root rooted earlier
              · rw [← List.mem_singleton.1 last] at listed
                exact root_unlisted consistent acyclic rooted parentReached listed
            rw [visits_counted off, miscount_counted off, List.append_cons]
            refine induction (progress.step counted) waits ?_
            rw [List.length_append, List.length_singleton]
            omega

theorem find?_child_counts {order : List NodeId} (known : ∀ node ∈ order, node < tree.size)
    (node : NodeId) :
    NodeValues.find? (tree.childCounts order) node =
      if node ∈ order then some (tree.children node).length else none := by
  have counted : ∀ counts : NodeValues Nat, counts.size = tree.size →
      NodeValues.find? (order.foldl
        (fun counts id => counts.setIfInBounds id (some (tree.children id).length)) counts) node =
        if node ∈ order then some (tree.children node).length
        else NodeValues.find? counts node := by
    induction order with
    | nil => simp
    | cons id order induction =>
        intro counts sized
        have inside : id < counts.size := sized ▸ known id (by simp)
        rw [List.foldl_cons, induction (fun node member => known node (by simp [member])) _ (by simpa),
          NodeValues.find?_set]
        by_cases later : node ∈ order
        · simp [later]
        · by_cases same : node = id
          · simp [same, inside]
          · simp [later, same]
  rw [childCounts, counted _ (by simp), NodeValues.find?_nothing]

theorem start_progress (consistent : tree.Consistent) (acyclic : tree.Acyclic) :
    tree.Progress [] tree.leaves (tree.childCounts tree.topologicalOrder) := by
  have nothing : ∀ node, tree.outstanding [] node = tree.children node := by simp [outstanding]
  have sameNodes := topological_order_perm consistent acyclic
  have known : ∀ node ∈ tree.topologicalOrder, node < tree.size := fun node member =>
    known_of_mem_preorder consistent acyclic (sameNodes.mem_iff.1 member)
  refine ⟨?_, ?_, ?_, ?_, ?_⟩
  · exact (preorder_nodup consistent acyclic).filter _
  · intro node
    simp [nothing, leaves]
  · intro node reached
    rw [find?_child_counts known, if_pos (sameNodes.mem_iff.2 reached), nothing]
  · intro node unreached
    rw [find?_child_counts known, if_neg (fun member => unreached (sameNodes.mem_iff.1 member))]
  · intro earlier node later split
    simp at split

def queueOrder (tree : Tree) : List NodeId :=
  tree.visits tree.topologicalOrder.length tree.leaves (tree.childCounts tree.topologicalOrder)

def queueMiscount? (tree : Tree) : Option ProcessingFailure :=
  tree.miscount? tree.topologicalOrder.length tree.leaves (tree.childCounts tree.topologicalOrder)

theorem queue_works_off (consistent : tree.Consistent) (acyclic : tree.Acyclic) :
    tree.WorksOff tree.queueOrder tree.queueMiscount? := by
  have sameLength := (topological_order_perm consistent acyclic).length_eq
  exact (start_progress consistent acyclic).works_off consistent acyclic _ (by simp)
    (by simp [sameLength])

/-- Everything reachable is below the root, so the root comes last. -/
theorem ChildrenFirst.getLast?_eq_root (consistent : tree.Consistent) (acyclic : tree.Acyclic)
    {order : List NodeId} (first : tree.ChildrenFirst order) : order.getLast? = tree.root := by
  cases rooted : tree.root with
  | none =>
      have nothing : order = [] := List.eq_nil_iff_forall_not_mem.2 fun node member => by
        simpa [preorder_of_rootless rooted] using (first.mem_iff node).1 member
      rw [nothing]
      rfl
  | some root =>
      have reached : root ∈ tree.preorder :=
        (mem_preorder_iff_reaches consistent acyclic).2 ⟨root, rooted, Relation.ReflTransGen.refl⟩
      obtain ⟨earlier, later, split⟩ := List.append_of_mem ((first.mem_iff root).2 reached)
      have before : tree.ChildrenBefore earlier := by
        intro lower node upper splitEarlier
        refine first.children_before lower node (upper ++ root :: later) ?_
        rw [split, splitEarlier, List.append_assoc, List.cons_append]
      have finished := first.children_before earlier root later split
      cases later with
      | nil =>
          rw [split]
          simp
      | cons node later =>
          exfalso
          have nodup := first.nodup
          have member : node ∈ order := by simp [split]
          obtain ⟨top, topRooted, reaches⟩ :=
            (mem_preorder_iff_reaches consistent acyclic).1 ((first.mem_iff node).1 member)
          rw [Option.some.inj (topRooted.symm.trans rooted)] at reaches
          rw [split] at nodup
          rcases Relation.reflTransGen_iff_eq_or_transGen.1 reaches with same | strictly
          · rw [same] at nodup
            exact (List.nodup_cons.1 (List.nodup_append.1 nodup).2.1).1 (by simp)
          · have earlierToo := before.below finished strictly
            exact (List.nodup_append.1 nodup).2.2 node earlierToo node (by simp) rfl

end Tree

end SyntaxGraph
