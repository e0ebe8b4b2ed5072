import SyntaxGraph.Proofs.Matching.Merging
import SyntaxGraph.Proofs.Tree.Duplicate
import SyntaxGraph.Proofs.Tree.Termination

/-!
Matching sees no numbers. Where two trees have the same rules, texts and lists of children up to a
renaming of nodes, patterns match in the one as they match in the other, up to that renaming. A copied
subtree is such a case, with the copy as renaming, and so is what copying leaves alone.
-/

set_option autoImplicit false

namespace SyntaxGraph

namespace Captures

/-- The same names, each bound to the node that stands for the one it was bound to. -/
def rename (copy : NodeId → NodeId) (captures : Captures) : Captures :=
  ⟨captures.entries.map fun entry => (entry.1, copy entry.2),
    List.pairwise_map.2 captures.increasing⟩

variable {copy : NodeId → NodeId} {first second : Tree}

theorem find_entry_rename (name : String) (entries : List (String × NodeId)) :
    StringMap.findEntry name (entries.map fun entry => (entry.1, copy entry.2)) =
      (StringMap.findEntry name entries).map copy := by
  induction entries with
  | nil => rfl
  | cons entry rest induction =>
      rw [List.map_cons, StringMap.findEntry, StringMap.findEntry]
      split
      · rfl
      · exact induction

theorem find_rename (name : String) (captures : Captures) :
    (captures.rename copy).find? name = (captures.find? name).map copy :=
  find_entry_rename name captures.entries

theorem rename_id (captures : Captures) : captures.rename id = captures := by
  apply StringMap.eq_of_find?
  intro name
  rw [find_rename, Option.map_id, id]

theorem rename_insert (captures : Captures) (name : String) (node : NodeId) :
    rename copy (captures.insert name node) =
      StringMap.insert (captures.rename copy) name (copy node) := by
  apply StringMap.eq_of_find?
  intro other
  rw [find_rename, StringMap.find?_insert, StringMap.find?_insert, find_rename]
  split
  · rfl
  · rfl

theorem rename_bind_all (names : List String) (node : NodeId) :
    (bindAll names node).rename copy = bindAll names (copy node) := by
  have extended : ∀ captures : Captures,
      rename copy (names.foldl (fun captures name => captures.insert name node) captures) =
        names.foldl (fun captures name => captures.insert name (copy node))
          (captures.rename copy) := by
    induction names with
    | nil => exact fun _ => rfl
    | cons name rest induction =>
        intro captures
        rw [List.foldl_cons, List.foldl_cons, induction, rename_insert]
  exact extended StringMap.empty

/-- Which binding a name gets depends on the texts of the bound nodes. -/
theorem settle_rename (name : String) (bindings : List NodeId)
    (sameText : ∀ node ∈ bindings, second.text? (copy node) = first.text? node) :
    settle second name (bindings.map copy) = (settle first name bindings).map copy := by
  induction bindings with
  | nil => rfl
  | cons node rest induction =>
      rw [List.map_cons, settle_cons, settle_cons, sameText node List.mem_cons_self,
        induction fun other member => sameText other (List.mem_cons_of_mem _ member)]
      split
      · rfl
      · cases settle first name rest <;> rfl

theorem rename_merge {sort : NodeId → Prop} {captures incoming : Captures}
    (sameText : ∀ node, sort node → second.text? (copy node) = first.text? node)
    (capturesAll : captures.All fun _ node => sort node)
    (incomingAll : incoming.All fun _ node => sort node) :
    (captures.merge first incoming).rename copy =
      (captures.rename copy).merge second (incoming.rename copy) := by
  apply StringMap.eq_of_find?
  intro name
  have lists : ((captures.find? name).map copy).toList ++ ((incoming.find? name).map copy).toList =
      ((captures.find? name).toList ++ (incoming.find? name).toList).map copy := by
    rw [List.map_append, Option.toList_map, Option.toList_map]
  rw [find_rename, find_merge, find_merge, find_rename, find_rename, lists]
  symm
  apply settle_rename
  intro node member
  apply sameText
  rcases List.mem_append.1 member with bound | bound
  · exact capturesAll.of_find (Option.mem_toList.1 bound)
  · exact incomingAll.of_find (Option.mem_toList.1 bound)

end Captures

theorem with_later_map {Item Other : Type} (change : Item → Other) (items : List Item) :
    withLater (items.map change) =
      (withLater items).map fun position => (change position.1, position.2.map change) := by
  induction items with
  | nil => rfl
  | cons item rest induction =>
      rw [List.map_cons, withLater, withLater, List.map_cons, induction]

namespace Tree

/-- Nodes of one sort in a tree, with what stands for them in another tree: everything that matching
looks at is the same. -/
structure Mirrors (first second : Tree) (copy : NodeId → NodeId) (sort : NodeId → Prop) : Prop where
  closed : ∀ node, sort node → ∀ child ∈ first.children node, sort child
  same_rule : ∀ node, sort node → second.rule (copy node) = first.rule node
  same_text : ∀ node, sort node → second.text? (copy node) = first.text? node
  same_children : ∀ node, sort node →
    second.children (copy node) = (first.children node).map copy

section Mirrors

variable {first second : Tree} {copy : NodeId → NodeId} {sort : NodeId → Prop}
  (mirrors : first.Mirrors second copy sort)
include mirrors

theorem Mirrors.reaches {node found : NodeId} (good : sort node)
    (reaches : Relation.ReflTransGen first.IsChild node found) : sort found := by
  induction reaches with
  | refl => exact good
  | tail _ listed induction => exact mirrors.closed _ induction _ listed

theorem Mirrors.accepts_eq {node : NodeId} (good : sort node) (form : NodeForm) :
    second.accepts (copy node) form = first.accepts node form := by
  have children : (second.children (copy node)).any
        (fun child => form.forbidden.contains (second.rule child)) =
      (first.children node).any fun child => form.forbidden.contains (first.rule child) := by
    rw [mirrors.same_children node good, List.any_map]
    apply Bool.eq_iff_iff.2
    rw [List.any_eq_true, List.any_eq_true]
    apply exists_congr
    intro child
    apply and_congr_right
    intro listed
    rw [Function.comp_apply, mirrors.same_rule child (mirrors.closed node good child listed)]
  rw [accepts, accepts, mirrors.same_rule node good, children]

theorem Mirrors.seed_eq {node : NodeId} (good : sort node) (form : NodeForm) :
    second.seedCaptures (copy node) form = (first.seedCaptures node form).rename copy := by
  rw [seedCaptures, seedCaptures, mirrors.same_rule node good]
  split
  · rw [Captures.rename_insert]
    rfl
  · rw [Captures.rename_bind_all]

theorem Mirrors.siblings_eq {matchesFirst matchesSecond : NodeId → Pattern → List Captures}
    (patterns : List Pattern) (siblings : List NodeId)
    (nested : ∀ child ∈ siblings, ∀ pattern,
      matchesSecond (copy child) pattern = (matchesFirst child pattern).map (Captures.rename copy) ∧
        ∀ bound ∈ matchesFirst child pattern, bound.All fun _ node => sort node)
    (captures : Captures) (all : captures.All fun _ node => sort node) :
    second.matchSiblings matchesSecond patterns (siblings.map copy) (captures.rename copy) =
      (first.matchSiblings matchesFirst patterns siblings captures).map (Captures.rename copy) := by
  induction patterns generalizing siblings captures with
  | nil => rfl
  | cons pattern rest induction =>
      have present : ((withLater (siblings.map copy)).flatMap fun position =>
            (matchesSecond position.1 pattern).flatMap fun bound =>
              second.matchSiblings matchesSecond rest position.2
                ((captures.rename copy).merge second bound)) =
          ((withLater siblings).flatMap fun position =>
            (matchesFirst position.1 pattern).flatMap fun bound =>
              first.matchSiblings matchesFirst rest position.2 (captures.merge first bound)).map
                (Captures.rename copy) := by
        rw [with_later_map, List.flatMap_map, List.map_flatMap]
        apply List.flatMap_congr
        rintro ⟨child, later⟩ listed
        obtain ⟨here, inside⟩ := mem_with_later listed
        obtain ⟨same, boundAll⟩ := nested child here pattern
        rw [same, List.flatMap_map, List.map_flatMap]
        apply List.flatMap_congr
        intro bound chosen
        rw [← Captures.rename_merge mirrors.same_text all (boundAll bound chosen)]
        exact induction later (fun other behind => nested other (inside other behind)) _
          (all.merge (boundAll bound chosen))
      rw [matchSiblings, matchSiblings]
      dsimp only
      rw [present, induction siblings nested captures all, List.isEmpty_map]
      split
      · rfl
      · rfl

theorem Mirrors.form_eq (levels : Nat) {node : NodeId} (good : sort node) (form : NodeForm) :
    second.matchForm levels (copy node) form =
      (first.matchForm levels node form).map (Captures.rename copy) := by
  induction levels generalizing node form with
  | zero => rfl
  | succ levels induction =>
      have below : ∀ child ∈ first.children node, sort child := mirrors.closed node good
      have siblings : second.matchSiblings
            (fun child pattern => pattern.nodeForms.flatMap (second.matchForm levels child))
            form.children (second.children (copy node)) (second.seedCaptures (copy node) form) =
          (first.matchSiblings
            (fun child pattern => pattern.nodeForms.flatMap (first.matchForm levels child))
            form.children (first.children node) (first.seedCaptures node form)).map
              (Captures.rename copy) := by
        rw [mirrors.same_children node good, mirrors.seed_eq good]
        apply mirrors.siblings_eq
        · intro child listed pattern
          constructor
          · rw [List.map_flatMap]
            apply List.flatMap_congr
            intro inner _
            exact induction (below child listed) inner
          · intro bound chosen entry member
            obtain ⟨inner, _, matched⟩ := List.mem_flatMap.1 chosen
            exact mirrors.reaches (below child listed)
              (reaches_of_match_form levels child inner bound matched entry member)
        · exact all_seed_captures fun _ _ => good
      have deeper : ((second.children (copy node)).flatMap fun child =>
            second.matchForm levels child form) =
          ((first.children node).flatMap fun child => first.matchForm levels child form).map
            (Captures.rename copy) := by
        rw [mirrors.same_children node good, List.flatMap_map, List.map_flatMap]
        apply List.flatMap_congr
        intro child listed
        exact induction (below child listed) form
      rw [match_form_level, match_form_level, matchLevel, matchLevel, mirrors.accepts_eq good,
        siblings, deeper]
      split
      · rw [List.map_append]
        split
        · rfl
        · rfl
      · rfl

/-- On acyclic links the sizes of the two trees, which bound the recursion, make no difference. -/
theorem Mirrors.match_at_eq (consistent : first.Consistent) (acyclic : first.Acyclic)
    (grows : first.size ≤ second.size) {node : NodeId} (known : first.contains node = true)
    (good : sort node) (pattern : Pattern) :
    second.matchAt (copy node) pattern =
      (first.matchAt node pattern).map (Captures.rename copy) := by
  rw [matchAt, matchAt, List.map_flatMap]
  apply List.flatMap_congr
  intro form _
  rw [mirrors.form_eq second.size good, match_form_ends consistent acyclic known form grows]

end Mirrors

variable {before after : Tree} {id copied : NodeId} {copy : NodeId → NodeId}

theorem Duplicates.grows (duplicates : before.Duplicates id copy copied after) :
    before.size ≤ after.size := by
  by_contra shrunk
  have last : before.contains (before.size - 1) = true :=
    decide_eq_true (show before.size - 1 < before.size by omega)
  obtain ⟨node, found⟩ := node_of_known last
  rw [← duplicates.old_kept _ last, node_of_unknown] at found
  · cases found
  · intro known
    have inside : before.size - 1 < after.size := of_decide_eq_true known
    omega

theorem Duplicates.mirrors_copy (duplicates : before.Duplicates id copy copied after)
    (consistent : before.Consistent) (known : before.contains id = true) :
    before.Mirrors after copy (Relation.ReflTransGen before.IsChild id) := by
  have labels : ∀ node, Relation.ReflTransGen before.IsChild id node →
      after.rule (copy node) = before.rule node ∧ after.text? (copy node) = before.text? node := by
    intro node reaches
    obtain ⟨original, found⟩ := node_of_known (consistent.known_of_reaches known reaches)
    obtain ⟨duplicate, held, _, sameRule, sameText, _⟩ :=
      duplicates.same_label node original reaches found
    rw [Tree.rule, Tree.rule, text?, text?, found, held]
    exact ⟨sameRule, congrArg some sameText⟩
  exact ⟨fun _ reaches _ listed => reaches.tail listed, fun node reaches => (labels node reaches).1,
    fun node reaches => (labels node reaches).2, duplicates.same_children⟩

theorem Duplicates.mirrors_old (duplicates : before.Duplicates id copy copied after)
    (consistent : before.Consistent) :
    before.Mirrors after (fun node => node) fun node => before.contains node = true where
  closed _ _ _ listed := consistent.child_known listed
  same_rule node known := by rw [Tree.rule, duplicates.old_kept node known]; rfl
  same_text node known := by rw [text?, duplicates.old_kept node known]; rfl
  same_children node known := by
    rw [Tree.children, duplicates.old_kept node known, List.map_id']
    rfl

/-- Copying a node of any tree without a node below itself goes through, and with every renaming that
shows the new top as a copy of the node, a pattern matches at the new top as it matched at the node,
in the same order and as often, with the bound nodes renamed. It still matches at the node itself as
it did. -/
theorem Reachable.copy_matches_alike (reachable : before.Reachable) (acyclic : before.Acyclic)
    {id : NodeId} (known : before.contains id = true) :
    ∃ copied after, (TreeEdit.deepCopy id).run.run before = (.ok copied, after) ∧
      (∃ copy, before.Duplicates id copy copied after) ∧
      ∀ copy, before.Duplicates id copy copied after → ∀ pattern,
        after.matchAt copied pattern =
            (before.matchAt id pattern).map (Captures.rename copy) ∧
          after.matchAt id pattern = before.matchAt id pattern := by
  have consistent := reachable.wellFormed.toConsistent
  obtain ⟨copied, after, ran, duplicated⟩ := deep_copy_duplicates consistent acyclic known
  refine ⟨copied, after, ran, duplicated, ?_⟩
  intro copy duplicates pattern
  constructor
  · rw [← duplicates.top]
    exact (duplicates.mirrors_copy consistent known).match_at_eq consistent acyclic duplicates.grows
      known Relation.ReflTransGen.refl pattern
  · have same := (duplicates.mirrors_old consistent).match_at_eq consistent acyclic duplicates.grows
      known known pattern
    rw [same]
    exact (List.map_congr_left fun captures _ => captures.rename_id).trans (List.map_id _)

/-- The definition whose parts are matched has other numbers in the copy, and its parts come in the
same order: the name, the block, and the two statements. -/
theorem definition_parts_matched_in_copy :
    let parts : Pattern := .node "def" ["scope"] [.node ".+" ["part"] [] [] false] [] false
    let bound (captures : Captures) := (captures.find? "scope", captures.find? "part")
    commentedDefinition.Reachable ∧ commentedDefinition.Acyclic ∧
      commentedDefinition.contains 1 = true ∧
      ∃ copied after, (TreeEdit.deepCopy 1).run.run commentedDefinition = (.ok copied, after) ∧
        (∃ copy, commentedDefinition.Duplicates 1 copy copied after ∧
          after.matchAt copied parts =
            (commentedDefinition.matchAt 1 parts).map (Captures.rename copy)) ∧
        (commentedDefinition.matchAt 1 parts).map bound =
          [(some 1, some 2), (some 1, some 3), (some 1, some 4), (some 1, some 5)] ∧
        (after.matchAt copied parts).map bound =
          [(some 7, some 8), (some 7, some 9), (some 7, some 10), (some 7, some 11)] := by
  intro parts bound
  have reachable : commentedDefinition.Reachable := Reachable.empty.afterCalls _
  have acyclic : commentedDefinition.Acyclic := acyclic_of_downward (by decide)
  have known : commentedDefinition.contains 1 = true := by decide
  obtain ⟨copied, after, ran, ⟨copy, duplicates⟩, alike⟩ := reachable.copy_matches_alike acyclic known
  have top : copied = 7 := by
    have yielded := congrArg (fun outcome => outcome.1.toOption) ran
    exact (Option.some.inj yielded).symm
  have left : after = ((TreeEdit.deepCopy 1).run.run commentedDefinition).2 := by rw [ran]
  refine ⟨reachable, acyclic, known, copied, after, ran,
    ⟨copy, duplicates, (alike copy duplicates parts).1⟩, by decide +kernel, ?_⟩
  rw [top, left]
  decide +kernel

end Tree

end SyntaxGraph
