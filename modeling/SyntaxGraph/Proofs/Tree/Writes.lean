import SyntaxGraph.Proofs.Tree.Links

/-!
What single writes to the arena change, and why they keep the links consistent and the numbering
intact. A node that nobody lists may take any parent, and may then be listed by the parent it
records.
-/

set_option autoImplicit false

namespace SyntaxGraph

namespace Tree

variable {tree : Tree}

/-- No child list holds the node. -/
def Unlisted (tree : Tree) (node : NodeId) : Prop := ∀ parent, node ∉ tree.children parent

/-- The recorded parent, if there is one, does not list the node. -/
def Detached (tree : Tree) (node : NodeId) : Prop :=
  ∀ parent, tree.parent? node = some parent → node ∉ tree.children parent

/-- Nodes are numbered by their positions, and every recorded parent is a node of the tree. -/
structure Numbered (tree : Tree) : Prop where
  id_of_position : ∀ position node, tree.node? position = some node → node.id = position
  parent_known : ∀ node parent, tree.parent? node = some parent → tree.contains parent = true

structure WellFormed (tree : Tree) : Prop extends tree.Consistent, tree.Numbered

theorem size_set_parent (node : NodeId) (parent : Option NodeId) :
    (tree.setParent node parent).size = tree.size := Array.size_modify

theorem size_set_children (node : NodeId) (children : List NodeId) :
    (tree.setChildren node children).size = tree.size := Array.size_modify

theorem size_push (parent : Option NodeId) (rule text : String) (span : Span) :
    (tree.push parent rule text span).size = tree.size + 1 := Array.size_push _

theorem children_set_parent (node other : NodeId) (parent : Option NodeId) :
    (tree.setParent node parent).children other = tree.children other := by
  unfold children node? setParent
  rw [Array.getElem?_modify]
  split
  · cases tree.nodes[other]? <;> rfl
  · rfl

theorem parent_set_parent {node : NodeId} (known : tree.contains node = true) (other : NodeId)
    (parent : Option NodeId) :
    (tree.setParent node parent).parent? other =
      if other = node then parent else tree.parent? other := by
  have inside : node < tree.nodes.size := of_decide_eq_true known
  unfold parent? node? setParent
  rw [Array.getElem?_modify]
  by_cases same : other = node
  · subst same
    rw [if_pos rfl, if_pos rfl, Array.getElem?_eq_getElem inside]
    rfl
  · rw [if_neg same, if_neg (Ne.symm same)]

theorem parent_set_children (node other : NodeId) (children : List NodeId) :
    (tree.setChildren node children).parent? other = tree.parent? other := by
  unfold parent? node? setChildren
  rw [Array.getElem?_modify]
  split
  · cases tree.nodes[other]? <;> rfl
  · rfl

theorem children_set_children {node : NodeId} (known : tree.contains node = true) (other : NodeId)
    (listed : List NodeId) :
    (tree.setChildren node listed).children other =
      if other = node then listed else tree.children other := by
  have inside : node < tree.nodes.size := of_decide_eq_true known
  unfold children node? setChildren
  rw [Array.getElem?_modify]
  by_cases same : other = node
  · subst same
    rw [if_pos rfl, if_pos rfl, Array.getElem?_eq_getElem inside]
    rfl
  · rw [if_neg same, if_neg (Ne.symm same)]

theorem ids_set_parent (node position : NodeId) (parent : Option NodeId) :
    ((tree.setParent node parent).node? position).map Node.id =
      (tree.node? position).map Node.id := by
  unfold node? setParent
  rw [Array.getElem?_modify]
  split
  · cases tree.nodes[position]? <;> rfl
  · rfl

theorem ids_set_children (node position : NodeId) (children : List NodeId) :
    ((tree.setChildren node children).node? position).map Node.id =
      (tree.node? position).map Node.id := by
  unfold node? setChildren
  rw [Array.getElem?_modify]
  split
  · cases tree.nodes[position]? <;> rfl
  · rfl

theorem node_set_children (node other : NodeId) (children : List NodeId) :
    (tree.setChildren node children).node? other =
      if other = node then (tree.node? node).map fun found => { found with children := children }
      else tree.node? other := by
  unfold node? setChildren
  rw [Array.getElem?_modify]
  by_cases same : other = node
  · rw [if_pos same, if_pos same.symm, same]
  · rw [if_neg same, if_neg (Ne.symm same)]

theorem node_set_parent (node other : NodeId) (parent : Option NodeId) :
    (tree.setParent node parent).node? other =
      if other = node then (tree.node? node).map fun found => { found with parent := parent }
      else tree.node? other := by
  unfold node? setParent
  rw [Array.getElem?_modify]
  by_cases same : other = node
  · rw [if_pos same, if_pos same.symm, same]
  · rw [if_neg same, if_neg (Ne.symm same)]

theorem node_push (parent : Option NodeId) (rule text : String) (span : Span)
    (position : NodeId) :
    (tree.push parent rule text span).node? position =
      if position = tree.size then some ⟨tree.size, rule, text, span, parent, []⟩
      else tree.node? position := Array.getElem?_push

theorem children_push (parent : Option NodeId) (rule text : String) (span : Span)
    (other : NodeId) : (tree.push parent rule text span).children other = tree.children other := by
  unfold children node? push
  rw [Array.getElem?_push]
  split
  · rename_i fresh
    rw [fresh, Array.getElem?_eq_none (Nat.le_refl _)]
    rfl
  · rfl

theorem parent_push (parent : Option NodeId) (rule text : String) (span : Span) (other : NodeId) :
    (tree.push parent rule text span).parent? other =
      if other = tree.size then parent else tree.parent? other := by
  unfold parent? node? push
  rw [Array.getElem?_push]
  by_cases fresh : other = tree.nodes.size
  · rw [if_pos fresh, if_pos (show other = tree.size from fresh)]
    rfl
  · rw [if_neg fresh, if_neg (show ¬other = tree.size from fresh)]

theorem eq_of_nodes {first second : Tree} (nodes : ∀ id, first.node? id = second.node? id)
    (root : first.root = second.root) : first = second := by
  obtain ⟨arena, firstRoot⟩ := first
  obtain ⟨otherArena, secondRoot⟩ := second
  cases root
  exact congrArg (Tree.mk · firstRoot) (Array.ext_getElem? nodes)

theorem set_same_children (node : NodeId) : tree.setChildren node (tree.children node) = tree := by
  refine eq_of_nodes (fun other => ?_) rfl
  rw [node_set_children]
  by_cases same : other = node
  · rw [if_pos same, same, children]
    cases tree.node? node <;> rfl
  · rw [if_neg same]

theorem push_set_children {node : NodeId} (known : tree.contains node = true)
    (listed : List NodeId) (parent : Option NodeId) (rule text : String) (span : Span) :
    (tree.push parent rule text span).setChildren node listed =
      (tree.setChildren node listed).push parent rule text span := by
  have old : node ≠ tree.size := Nat.ne_of_lt (of_decide_eq_true known)
  refine eq_of_nodes (fun other => ?_) rfl
  rw [node_set_children, node_push, node_push, node_push, node_set_children, size_set_children,
    if_neg old]
  by_cases fresh : other = tree.size
  · rw [if_pos fresh, if_pos fresh, if_neg fun same => old (same.symm.trans fresh)]
  · rw [if_neg fresh, if_neg fresh]

theorem push_set_parent (parent : Option NodeId) (rule text : String) (span : Span) :
    (tree.push parent rule text span).setParent tree.size parent =
      tree.push parent rule text span := by
  refine eq_of_nodes (fun other => ?_) rfl
  rw [node_set_parent, node_push, node_push]
  by_cases fresh : other = tree.size
  · rw [if_pos fresh, if_pos rfl, if_pos fresh]
    rfl
  · rw [if_neg fresh, if_neg fresh]

theorem contains_mono {larger : Tree} (grows : tree.size ≤ larger.size) {node : NodeId}
    (known : tree.contains node = true) : larger.contains node = true :=
  decide_eq_true (Nat.lt_of_lt_of_le (of_decide_eq_true known) grows)

theorem contains_pushed (tree : Tree) (parent : Option NodeId) (rule text : String) (span : Span) :
    (tree.push parent rule text span).contains tree.size = true := by
  apply decide_eq_true
  rw [size_push]
  exact Nat.lt_succ_self _

/-- A detached node is one that nobody lists, since only its recorded parent could. -/
theorem Consistent.unlisted (consistent : tree.Consistent) {node : NodeId}
    (detached : tree.Detached node) :
    tree.Unlisted node := by
  intro parent listed
  exact detached parent (consistent.parent_of_child parent node listed) listed

theorem Consistent.fresh_unlisted (consistent : tree.Consistent) : tree.Unlisted tree.size := by
  intro parent listed
  have known := consistent.child_known listed
  exact Nat.lt_irrefl _ (of_decide_eq_true known)

theorem Consistent.push (consistent : tree.Consistent) (parent : Option NodeId)
    (rule text : String) (span : Span) : (tree.push parent rule text span).Consistent := by
  have grows : tree.size ≤ (tree.push parent rule text span).size := by
    rw [size_push]
    exact Nat.le_succ _
  refine ⟨?_, ?_, ?_⟩
  · intro lister child listed
    rw [children_push] at listed
    have old : child ≠ tree.size := by
      intro fresh
      rw [fresh] at listed
      exact consistent.fresh_unlisted lister listed
    rw [parent_push, if_neg old]
    exact consistent.parent_of_child lister child listed
  · intro lister
    rw [children_push]
    exact consistent.children_nodup lister
  · intro root rooted
    exact contains_mono grows (consistent.root_known root rooted)

theorem Consistent.setParent (consistent : tree.Consistent) {node : NodeId}
    (known : tree.contains node = true) (unlisted : tree.Unlisted node) (parent : Option NodeId) :
    (tree.setParent node parent).Consistent := by
  refine ⟨?_, ?_, ?_⟩
  · intro lister child listed
    rw [children_set_parent] at listed
    have other : child ≠ node := by
      intro same
      rw [same] at listed
      exact unlisted lister listed
    rw [parent_set_parent known, if_neg other]
    exact consistent.parent_of_child lister child listed
  · intro lister
    rw [children_set_parent]
    exact consistent.children_nodup lister
  · intro root rooted
    exact contains_mono (Nat.le_of_eq (size_set_parent _ _).symm) (consistent.root_known root rooted)

theorem Consistent.appendChild (consistent : tree.Consistent) {parent node : NodeId}
    (known : tree.contains parent = true) (unlisted : tree.Unlisted node)
    (recorded : tree.parent? node = some parent) :
    (tree.setChildren parent (tree.children parent ++ [node])).Consistent := by
  refine ⟨?_, ?_, ?_⟩
  · intro lister child listed
    rw [children_set_children known] at listed
    rw [parent_set_children]
    by_cases same : lister = parent
    · rw [if_pos same] at listed
      subst same
      rcases List.mem_append.1 listed with before | last
      · exact consistent.parent_of_child lister child before
      · rw [List.mem_singleton.1 last]
        exact recorded
    · rw [if_neg same] at listed
      exact consistent.parent_of_child lister child listed
  · intro lister
    rw [children_set_children known]
    by_cases same : lister = parent
    · rw [if_pos same]
      refine List.nodup_append.2 ⟨consistent.children_nodup parent, by simp, ?_⟩
      intro other member last lastMember equal
      rw [equal, List.mem_singleton.1 lastMember] at member
      exact unlisted parent member
    · rw [if_neg same]
      exact consistent.children_nodup lister
  · intro root rooted
    exact contains_mono (Nat.le_of_eq (size_set_children _ _).symm)
      (consistent.root_known root rooted)

theorem mem_set_of_nodup {items : List NodeId} (nodup : items.Nodup) {index : Nat}
    {old new item : NodeId} (there : items[index]? = some old) (member : item ∈ items.set index new) :
    item = new ∨ item ∈ items ∧ item ≠ old := by
  obtain ⟨position, found⟩ := List.getElem?_of_mem member
  have within : index < items.length := (List.getElem?_eq_some_iff.1 there).1
  by_cases same : index = position
  · subst same
    rw [List.getElem?_set_self within] at found
    exact Or.inl (Option.some.inj found).symm
  · rw [List.getElem?_set_ne same] at found
    refine Or.inr ⟨List.mem_of_getElem? found, ?_⟩
    intro equal
    rw [equal, ← there] at found
    have inside : position < items.length := (List.getElem?_eq_some_iff.1 (found.trans there)).1
    exact same ((List.getElem?_inj inside nodup).1 found).symm

theorem Consistent.replaceAt (consistent : tree.Consistent) {parent old node : NodeId} {index : Nat}
    (there : (tree.children parent)[index]? = some old) (known : tree.contains node = true)
    (unlisted : tree.Unlisted node) :
    (((tree.setChildren parent ((tree.children parent).set index node)).setParent old
      none).setParent node (some parent)).Consistent := by
  have listedOld : old ∈ tree.children parent := List.mem_of_getElem? there
  have parentKnown := known_of_listing listedOld
  have oldKnown := consistent.child_known listedOld
  have sizes : (((tree.setChildren parent ((tree.children parent).set index node)).setParent old
      none).setParent node (some parent)).size = tree.size := by
    rw [size_set_parent, size_set_parent, size_set_children]
  have parents : ∀ other, (((tree.setChildren parent ((tree.children parent).set index
      node)).setParent old none).setParent node (some parent)).parent? other =
      if other = node then some parent else if other = old then none else tree.parent? other := by
    intro other
    rw [parent_set_parent, parent_set_parent, parent_set_children]
    · exact contains_mono (Nat.le_of_eq (size_set_children _ _).symm) oldKnown
    · have sameSize : tree.size = ((tree.setChildren parent ((tree.children parent).set index
          node)).setParent old none).size := by
        rw [size_set_parent, size_set_children]
      exact contains_mono (Nat.le_of_eq sameSize) known
  refine ⟨?_, ?_, ?_⟩
  · intro lister child listed
    rw [children_set_parent, children_set_parent, children_set_children parentKnown] at listed
    rw [parents]
    by_cases same : lister = parent
    · rw [if_pos same] at listed
      rcases mem_set_of_nodup (consistent.children_nodup parent) there listed with new | ⟨kept, other⟩
      · rw [if_pos new, same]
      · have notNew : child ≠ node := by
          intro equal
          rw [equal] at kept
          exact unlisted parent kept
        rw [if_neg notNew, if_neg other, same]
        exact consistent.parent_of_child parent child kept
    · rw [if_neg same] at listed
      have recorded := consistent.parent_of_child lister child listed
      have notNew : child ≠ node := by
        intro equal
        rw [equal] at listed
        exact unlisted lister listed
      have notOld : child ≠ old := by
        intro equal
        rw [equal, consistent.parent_of_child parent old listedOld] at recorded
        exact same (Option.some.inj recorded).symm
      rw [if_neg notNew, if_neg notOld]
      exact recorded
  · intro lister
    rw [children_set_parent, children_set_parent, children_set_children parentKnown]
    by_cases same : lister = parent
    · rw [if_pos same]
      exact (consistent.children_nodup parent).set (unlisted parent)
    · rw [if_neg same]
      exact consistent.children_nodup lister
  · intro root rooted
    exact contains_mono (Nat.le_of_eq sizes.symm) (consistent.root_known root rooted)

-- The arena as a list

theorem modify_behind (before after : List Node) (node : Node) (change : Node → Node) :
    (before ++ node :: after).modify before.length change = before ++ change node :: after := by
  induction before with
  | nil => rfl
  | cons first before induction => simpa using induction

theorem modify_before (before after : List Node) {index : Nat} (inside : index < before.length)
    (change : Node → Node) :
    (before ++ after).modify index change = before.modify index change ++ after := by
  induction before generalizing index with
  | nil => simp at inside
  | cons first before induction =>
      cases index with
      | zero => rfl
      | succ index => simpa using induction (Nat.lt_of_succ_lt_succ inside)

theorem set_children_behind {grown : Tree} {parent : Option NodeId} {rule text : String}
    {span : Span} {after : List Node} (listed : List NodeId)
    (held : grown.nodes.toList = (tree.push parent rule text span).nodes.toList ++ after) :
    (grown.setChildren tree.size listed).nodes.toList =
      tree.nodes.toList ++ ⟨tree.size, rule, text, span, parent, listed⟩ :: after := by
  have behind := modify_behind tree.nodes.toList after ⟨tree.size, rule, text, span, parent, []⟩
    fun node => { node with children := listed }
  rw [setChildren, Array.toList_modify, held, push, Array.toList_push, List.append_assoc]
  exact behind

-- The numbering

theorem recorded_known {parent : NodeId} (known : tree.contains parent = true) :
    ∀ lister ∈ some parent, tree.contains lister = true := by
  intro lister same
  rw [← Option.some.inj same]
  exact known

theorem Numbered.push (numbered : tree.Numbered) {parent : Option NodeId}
    (parentKnown : ∀ lister ∈ parent, tree.contains lister = true) (rule text : String)
    (span : Span) : (tree.push parent rule text span).Numbered := by
  have grows : tree.size ≤ (tree.push parent rule text span).size := by
    rw [size_push]
    exact Nat.le_succ _
  refine ⟨?_, ?_⟩
  · intro position node found
    rw [node_push] at found
    by_cases fresh : position = tree.size
    · rw [if_pos fresh] at found
      cases found
      exact fresh.symm
    · rw [if_neg fresh] at found
      exact numbered.id_of_position position node found
  · intro node lister recorded
    rw [parent_push] at recorded
    by_cases fresh : node = tree.size
    · rw [if_pos fresh] at recorded
      exact contains_mono grows (parentKnown lister recorded)
    · rw [if_neg fresh] at recorded
      exact contains_mono grows (numbered.parent_known node lister recorded)

theorem Numbered.rewritten (numbered : tree.Numbered) {after : Tree}
    (sameIds : ∀ position, (after.node? position).map Node.id = (tree.node? position).map Node.id)
    (parentKnown : ∀ node parent, after.parent? node = some parent → after.contains parent = true) :
    after.Numbered := by
  refine ⟨?_, parentKnown⟩
  intro position node found
  have same := sameIds position
  rw [found] at same
  obtain ⟨before, there, id_eq⟩ := Option.map_eq_some_iff.1 same.symm
  rw [← id_eq]
  exact numbered.id_of_position position before there

theorem Numbered.setParent (numbered : tree.Numbered) {node : NodeId}
    (known : tree.contains node = true) {parent : Option NodeId}
    (parentKnown : ∀ lister ∈ parent, tree.contains lister = true) :
    (tree.setParent node parent).Numbered := by
  have sameSize : tree.size ≤ (tree.setParent node parent).size :=
    Nat.le_of_eq (size_set_parent node parent).symm
  apply numbered.rewritten (fun position => ids_set_parent node position parent)
  intro other lister recorded
  rw [parent_set_parent known] at recorded
  by_cases same : other = node
  · rw [if_pos same] at recorded
    exact contains_mono sameSize (parentKnown lister recorded)
  · rw [if_neg same] at recorded
    exact contains_mono sameSize (numbered.parent_known other lister recorded)

theorem Numbered.setChildren (numbered : tree.Numbered) (node : NodeId) (children : List NodeId) :
    (tree.setChildren node children).Numbered := by
  apply numbered.rewritten (fun position => ids_set_children node position children)
  intro other parent recorded
  rw [parent_set_children] at recorded
  exact contains_mono (Nat.le_of_eq (size_set_children node children).symm)
    (numbered.parent_known other parent recorded)

theorem WellFormed.push (wellFormed : tree.WellFormed) {parent : Option NodeId}
    (parentKnown : ∀ lister ∈ parent, tree.contains lister = true) (rule text : String)
    (span : Span) : (tree.push parent rule text span).WellFormed :=
  ⟨wellFormed.toConsistent.push parent rule text span,
    wellFormed.toNumbered.push parentKnown rule text span⟩

theorem WellFormed.appendChild (wellFormed : tree.WellFormed) {parent node : NodeId}
    (known : tree.contains parent = true) (unlisted : tree.Unlisted node)
    (recorded : tree.parent? node = some parent) :
    (tree.setChildren parent (tree.children parent ++ [node])).WellFormed :=
  ⟨wellFormed.toConsistent.appendChild known unlisted recorded,
    wellFormed.toNumbered.setChildren parent _⟩

theorem WellFormed.replaceAt (wellFormed : tree.WellFormed) {parent old node : NodeId}
    {index : Nat} (there : (tree.children parent)[index]? = some old)
    (known : tree.contains node = true) (unlisted : tree.Unlisted node) :
    (((tree.setChildren parent ((tree.children parent).set index node)).setParent old
      none).setParent node (some parent)).WellFormed := by
  have listedOld : old ∈ tree.children parent := List.mem_of_getElem? there
  have oldKnown : (tree.setChildren parent ((tree.children parent).set index node)).contains old =
      true :=
    contains_mono (Nat.le_of_eq (size_set_children parent _).symm) (wellFormed.child_known listedOld)
  have freed : ((tree.setChildren parent ((tree.children parent).set index node)).setParent old
      none).Numbered :=
    (wellFormed.toNumbered.setChildren parent _).setParent oldKnown (by simp)
  have sizes : tree.size ≤ ((tree.setChildren parent ((tree.children parent).set index
      node)).setParent old none).size := by
    apply Nat.le_of_eq
    rw [size_set_parent, size_set_children]
  refine ⟨wellFormed.toConsistent.replaceAt there known unlisted, ?_⟩
  exact freed.setParent (contains_mono sizes known)
    (recorded_known (contains_mono sizes (known_of_listing listedOld)))

end Tree

end SyntaxGraph
