import SyntaxGraph.Matching
import SyntaxGraph.Proofs.Tree.Links

/-!
Where the bindings of a match come from. Binding and merging add entries that one of the parts
already has, so whatever holds of the parts holds of the whole: a match at a node binds nodes of its
subtree only, and each of them for a node form of the pattern that fits it. Nothing is ever unbound,
so the names of a node pattern are bound in every one of its matches.
-/

set_option autoImplicit false

namespace SyntaxGraph

namespace Captures

def All (sort : String → NodeId → Prop) (captures : Captures) : Prop :=
  ∀ entry ∈ captures.entries, sort entry.1 entry.2

variable {sort : String → NodeId → Prop}

theorem mem_of_find_entry {name : String} {node : NodeId} (entries : List (String × NodeId))
    (found : StringMap.findEntry name entries = some node) : (name, node) ∈ entries := by
  induction entries with
  | nil => cases found
  | cons entry rest induction =>
      unfold StringMap.findEntry at found
      split at found
      · rename_i same
        cases found
        rw [same]
        exact List.mem_cons_self
      · exact List.mem_cons_of_mem _ (induction found)

theorem All.of_find {captures : Captures} (all : captures.All sort) {name : String}
    {node : NodeId} (found : captures.find? name = some node) : sort name node :=
  all (name, node) (mem_of_find_entry captures.entries found)

theorem all_empty : All sort StringMap.empty := by
  intro entry member
  cases member

theorem All.insert {captures : Captures} (all : captures.All sort) {name : String} {node : NodeId}
    (good : sort name node) : All sort (captures.insert name node) := by
  intro entry member
  rcases StringMap.mem_insertEntry member with same | earlier
  · rw [same]
    exact good
  · exact all entry earlier

theorem all_bind_all {names : List String} {node : NodeId} (good : ∀ name ∈ names, sort name node) :
    All sort (bindAll names node) := by
  have extended : ∀ captures : Captures, captures.All sort →
      All sort (names.foldl (fun captures name => captures.insert name node) captures) := by
    induction names with
    | nil => exact fun _ all => all
    | cons name rest induction =>
        intro captures all
        rw [List.foldl_cons]
        apply induction fun later member => good later (by simp [member])
        exact all.insert (good name (by simp))
  exact extended StringMap.empty all_empty

theorem All.merge {tree : Tree} {captures incoming : Captures} (all : captures.All sort)
    (incomingAll : incoming.All sort) : All sort (captures.merge tree incoming) := by
  have folded : ∀ entries : List (String × NodeId), (∀ entry ∈ entries, sort entry.1 entry.2) →
      ∀ captures : Captures, captures.All sort →
        All sort (entries.foldl (mergeEntry tree) captures) := by
    intro entries good
    induction entries with
    | nil => exact fun _ all => all
    | cons entry rest induction =>
        intro captures all
        rw [List.foldl_cons]
        apply induction fun later member => good later (by simp [member])
        unfold mergeEntry
        split
        · exact all
        · exact all.insert (good entry (by simp))
  exact folded incoming.entries incomingAll captures all

theorem contains_insert {captures : Captures} {name other : String} {node : NodeId} :
    StringMap.contains (captures.insert name node) other = true ↔
      other = name ∨ captures.contains other = true := by
  unfold StringMap.contains
  rw [StringMap.find?_insert]
  by_cases same : other = name <;> simp [same]

theorem contains_bind_all {names : List String} {name : String} (listed : name ∈ names)
    (node : NodeId) : (bindAll names node).contains name = true := by
  have kept : ∀ captures : Captures, captures.contains name = true ∨ name ∈ names →
      StringMap.contains
        (names.foldl (fun captures name => captures.insert name node) captures) name = true := by
    clear listed
    induction names with
    | nil => simp
    | cons first rest induction =>
        intro captures bound
        rw [List.foldl_cons]
        apply induction
        rw [contains_insert]
        rcases bound with before | now
        · exact Or.inl (Or.inr before)
        · rcases List.mem_cons.1 now with same | later
          · exact Or.inl (Or.inl same)
          · exact Or.inr later
  exact kept StringMap.empty (Or.inr listed)

theorem contains_merge {tree : Tree} {captures incoming : Captures} {name : String}
    (bound : captures.contains name = true) :
    (captures.merge tree incoming).contains name = true := by
  have kept : ∀ (entries : List (String × NodeId)) (captures : Captures),
      captures.contains name = true →
      StringMap.contains (entries.foldl (mergeEntry tree) captures) name = true := by
    intro entries
    induction entries with
    | nil => exact fun _ bound => bound
    | cons entry rest induction =>
        intro captures bound
        rw [List.foldl_cons]
        apply induction
        unfold mergeEntry
        split
        · exact bound
        · exact contains_insert.2 (Or.inr bound)
  exact kept incoming.entries captures bound

end Captures

theorem mem_with_later {Item : Type} {item : Item} {later items : List Item}
    (member : (item, later) ∈ withLater items) :
    item ∈ items ∧ ∀ other ∈ later, other ∈ items := by
  induction items with
  | nil => cases member
  | cons head rest induction =>
      rcases List.mem_cons.1 member with same | behind
      · cases same
        exact ⟨List.mem_cons_self, fun other inside => List.mem_cons_of_mem _ inside⟩
      · obtain ⟨here, inside⟩ := induction behind
        exact ⟨List.mem_cons_of_mem _ here, fun other more =>
          List.mem_cons_of_mem _ (inside other more)⟩

namespace Tree

variable {tree : Tree} {sort : String → NodeId → Prop}

theorem all_of_match_siblings {matchesAt : NodeId → Pattern → List Captures}
    (patterns : List Pattern) (siblings : List NodeId)
    (nested : ∀ child ∈ siblings, ∀ pattern ∈ patterns, ∀ bound ∈ matchesAt child pattern,
      bound.All sort)
    (captures : Captures) (all : captures.All sort) :
    ∀ result ∈ tree.matchSiblings matchesAt patterns siblings captures, result.All sort := by
  induction patterns generalizing siblings captures with
  | nil =>
      intro result member
      rw [matchSiblings, List.mem_singleton] at member
      rw [member]
      exact all
  | cons pattern rest induction =>
      have present : ∀ result ∈ (withLater siblings).flatMap (fun position =>
          (matchesAt position.1 pattern).flatMap fun bound =>
            tree.matchSiblings matchesAt rest position.2 (captures.merge tree bound)),
          result.All sort := by
        intro result member
        obtain ⟨⟨child, later⟩, position, member⟩ := List.mem_flatMap.1 member
        obtain ⟨bound, chosen, member⟩ := List.mem_flatMap.1 member
        obtain ⟨here, inside⟩ := mem_with_later position
        have boundAll := nested child here pattern (by simp) bound chosen
        have nestedBehind : ∀ other ∈ later, ∀ pattern ∈ rest,
            ∀ bound ∈ matchesAt other pattern, bound.All sort := by
          intro other behind pattern listed
          exact nested other (inside other behind) pattern (by simp [listed])
        exact induction later nestedBehind (captures.merge tree bound) (all.merge boundAll) result
          member
      rw [matchSiblings]
      dsimp only
      split
      · apply induction siblings
        · intro child here pattern listed
          exact nested child here pattern (by simp [listed])
        · exact all
      · exact present

theorem all_seed_captures {node : NodeId} {form : NodeForm}
    (good : ∀ name, name ∈ form.captures ∨ form.captures = [] ∧ name = tree.rule node →
      sort name node) :
    (tree.seedCaptures node form).All sort := by
  unfold seedCaptures
  split
  · rename_i unnamed
    exact Captures.all_empty.insert (good _ (Or.inr ⟨List.isEmpty_iff.1 unnamed, rfl⟩))
  · exact Captures.all_bind_all fun name listed => good name (Or.inl listed)

/-- A sort of bindings that may depend on the node and the form matched there. It holds of all
bindings if it holds of what a form binds at its own node, and passes from a child to its parent
both for the forms of child patterns and for a form that looks at every deeper level. -/
theorem all_of_match_form (sort : NodeId → NodeForm → String → NodeId → Prop)
    (seeded : ∀ node form name, tree.accepts node form = true →
      name ∈ form.captures ∨ form.captures = [] ∧ name = tree.rule node → sort node form name node)
    (nested : ∀ node form child pattern inner name bound, child ∈ tree.children node →
      pattern ∈ form.children → inner ∈ pattern.nodeForms → sort child inner name bound →
        sort node form name bound)
    (deeper : ∀ node form child name bound, child ∈ tree.children node →
      sort child form name bound → sort node form name bound)
    (levels : Nat) (node : NodeId) (form : NodeForm) :
    ∀ captures ∈ tree.matchForm levels node form, captures.All (sort node form) := by
  induction levels generalizing node form with
  | zero =>
      intro captures member
      cases member
  | succ levels induction =>
      intro captures member
      rw [matchForm] at member
      split at member
      · rename_i accepted
        -- Captures of the children are merged into those of the node itself.
        have here : ∀ captures ∈ tree.matchSiblings
              (fun child pattern => pattern.nodeForms.flatMap (tree.matchForm levels child))
              form.children (tree.children node) (tree.seedCaptures node form),
            captures.All (sort node form) := by
          apply all_of_match_siblings
          · intro child listed pattern childPattern bound chosen entry member
            obtain ⟨inner, innerListed, matched⟩ := List.mem_flatMap.1 chosen
            exact nested node form child pattern inner _ _ listed childPattern innerListed
              (induction child inner bound matched entry member)
          · exact all_seed_captures fun name named => seeded node form name accepted named
        dsimp only at member
        split at member
        · rcases List.mem_append.1 member with now | below
          · exact here captures now
          · obtain ⟨child, listed, below⟩ := List.mem_flatMap.1 below
            intro entry bound
            exact deeper node form child _ _ listed
              (induction child form captures below entry bound)
        · exact here captures member
      · cases member

theorem reaches_of_match_form (levels : Nat) (node : NodeId) (form : NodeForm) :
    ∀ captures ∈ tree.matchForm levels node form,
      captures.All fun _ bound => Relation.ReflTransGen tree.IsChild node bound := by
  apply all_of_match_form fun node _ _ bound => Relation.ReflTransGen tree.IsChild node bound
  · intro node _ _ _ _
    exact Relation.ReflTransGen.refl
  · intro node _ child _ _ _ bound listed _ _ reaches
    exact Relation.ReflTransGen.head listed reaches
  · intro node _ child _ bound listed reaches
    exact Relation.ReflTransGen.head listed reaches

theorem reaches_of_match_at {node : NodeId} {pattern : Pattern} {captures : Captures}
    (member : captures ∈ tree.matchAt node pattern) {name : String} {bound : NodeId}
    (found : captures.find? name = some bound) : Relation.ReflTransGen tree.IsChild node bound := by
  obtain ⟨form, _, member⟩ := List.mem_flatMap.1 member
  exact (reaches_of_match_form tree.size node form captures member).of_find found

end Tree

/-- A node form is written somewhere in a pattern: as the pattern itself, in one of its children, or
in one of its alternatives. -/
inductive NodeForm.OccursIn (form : NodeForm) : Pattern → Prop
  | root {rule : String} {captures : List String} {children : List Pattern}
      {forbidden : List String} {optional : Bool} (same : form = ⟨rule, captures, children, forbidden⟩) :
      OccursIn form (.node rule captures children forbidden optional)
  | child {rule : String} {captures : List String} {children : List Pattern}
      {forbidden : List String} {optional : Bool} {pattern : Pattern} (listed : pattern ∈ children)
      (occurs : OccursIn form pattern) :
      OccursIn form (.node rule captures children forbidden optional)
  | option {options : List Pattern} {optional : Bool} {pattern : Pattern}
      (listed : pattern ∈ options) (occurs : OccursIn form pattern) :
      OccursIn form (.alternatives options optional)

/-- What entitles a form to bind a node under a name: the rule fits the node, no direct child has a
forbidden rule, and the name is one that the form declares, or the node's rule if it declares none. -/
structure NodeForm.Binds (tree : Tree) (form : NodeForm) (name : String) (bound : NodeId) :
    Prop where
  rule_fits : form.rule = Pattern.wildcard ∨ form.rule = Pattern.descendants ∨
    form.rule = tree.rule bound
  none_forbidden : ∀ child ∈ tree.children bound, tree.rule child ∉ form.forbidden
  named : name ∈ form.captures ∨ form.captures = [] ∧ name = tree.rule bound

mutual

/-- The forms that a pattern stands for are written in it, with everything that their own children
are made of. -/
theorem occurs_of_node_form {outer form : NodeForm} (pattern : Pattern)
    (listed : outer ∈ pattern.nodeForms)
    (within : form = outer ∨ ∃ child ∈ outer.children, form.OccursIn child) :
    form.OccursIn pattern := by
  match pattern with
  | .node rule captures children forbidden optional =>
      rw [Pattern.nodeForms, List.mem_singleton] at listed
      subst listed
      rcases within with same | ⟨child, childListed, occurs⟩
      · exact .root same
      · exact .child childListed occurs
  | .alternatives options optional =>
      rw [Pattern.nodeForms] at listed
      obtain ⟨option, optionListed, occurs⟩ := occurs_of_option_form options listed within
      exact .option optionListed occurs

theorem occurs_of_option_form {outer form : NodeForm} (options : List Pattern)
    (listed : outer ∈ Pattern.allNodeForms options)
    (within : form = outer ∨ ∃ child ∈ outer.children, form.OccursIn child) :
    ∃ option ∈ options, form.OccursIn option := by
  match options with
  | [] =>
      rw [Pattern.allNodeForms] at listed
      cases listed
  | option :: rest =>
      rw [Pattern.allNodeForms] at listed
      rcases List.mem_append.1 listed with here | later
      · exact ⟨option, List.mem_cons_self, occurs_of_node_form option here within⟩
      · obtain ⟨other, otherListed, occurs⟩ := occurs_of_option_form rest later within
        exact ⟨other, List.mem_cons_of_mem _ otherListed, occurs⟩

end

namespace Tree

variable {tree : Tree}

theorem binds_of_accepts {node : NodeId} {form : NodeForm} {name : String}
    (accepted : tree.accepts node form = true)
    (named : name ∈ form.captures ∨ form.captures = [] ∧ name = tree.rule node) :
    form.Binds tree name node := by
  unfold accepts at accepted
  simp only [Bool.and_eq_true, Bool.or_eq_true, decide_eq_true_eq, Bool.not_eq_true',
    List.any_eq_false, List.contains_iff_mem] at accepted
  obtain ⟨fits, free⟩ := accepted
  refine ⟨?_, free, named⟩
  rcases fits with (deep | any) | same
  · exact Or.inr (Or.inl deep)
  · exact Or.inl any
  · exact Or.inr (Or.inr same)

theorem binds_of_match_form (levels : Nat) (node : NodeId) (form : NodeForm) :
    ∀ captures ∈ tree.matchForm levels node form, captures.All fun name bound =>
      ∃ source : NodeForm, (source = form ∨ ∃ child ∈ form.children, source.OccursIn child) ∧
        source.Binds tree name bound := by
  apply all_of_match_form fun _ form name bound =>
    ∃ source : NodeForm, (source = form ∨ ∃ child ∈ form.children, source.OccursIn child) ∧
      source.Binds tree name bound
  · intro node form name accepted named
    exact ⟨form, Or.inl rfl, binds_of_accepts accepted named⟩
  · rintro node form child pattern inner name bound _ childPattern listed ⟨source, within, binds⟩
    exact ⟨source, Or.inr ⟨pattern, childPattern, occurs_of_node_form pattern listed within⟩, binds⟩
  · intro _ _ _ _ _ _ found
    exact found

theorem contains_seed_captures {node : NodeId} {form : NodeForm} {name : String}
    (named : name ∈ form.captures ∨ form.captures = [] ∧ name = tree.rule node) :
    (tree.seedCaptures node form).contains name = true := by
  unfold seedCaptures
  rcases named with listed | ⟨unnamed, same⟩
  · rw [if_neg (by simpa using List.ne_nil_of_mem listed)]
    exact Captures.contains_bind_all listed node
  · rw [if_pos (List.isEmpty_iff.2 unnamed)]
    exact Captures.contains_insert.2 (Or.inl same)

theorem contains_of_match_siblings {matchesAt : NodeId → Pattern → List Captures} {name : String}
    (patterns : List Pattern) (siblings : List NodeId) (captures : Captures)
    (bound : captures.contains name = true) :
    ∀ result ∈ tree.matchSiblings matchesAt patterns siblings captures,
      result.contains name = true := by
  induction patterns generalizing siblings captures with
  | nil =>
      intro result member
      rw [matchSiblings, List.mem_singleton] at member
      rw [member]
      exact bound
  | cons pattern rest induction =>
      intro result member
      rw [matchSiblings] at member
      dsimp only at member
      split at member
      · exact induction siblings captures bound result member
      · obtain ⟨⟨child, later⟩, _, member⟩ := List.mem_flatMap.1 member
        obtain ⟨chosen, _, member⟩ := List.mem_flatMap.1 member
        exact induction later _ (Captures.contains_merge bound) result member

theorem contains_of_match_form {levels : Nat} {node : NodeId} {form : NodeForm}
    (shallow : form.rule ≠ Pattern.descendants) {name : String}
    (named : name ∈ form.captures ∨ form.captures = [] ∧ name = tree.rule node) :
    ∀ captures ∈ tree.matchForm levels node form, captures.contains name = true := by
  intro captures member
  cases levels with
  | zero => cases member
  | succ levels =>
      rw [matchForm] at member
      split at member
      · dsimp only at member
        exact contains_of_match_siblings _ _ _ (contains_seed_captures named) captures member
      · cases member

/-- Every binding of a match at a node is of a node in its subtree, and comes from a form of the
pattern that fits the bound node and names it. A node pattern for one level binds, in every match,
all names that it declares, or the rule of the node if it declares none. -/
theorem match_binds_fitting_nodes {node : NodeId} {pattern : Pattern} {captures : Captures}
    (matched : captures ∈ tree.matchAt node pattern) :
    (∀ name bound, captures.find? name = some bound →
      Relation.ReflTransGen tree.IsChild node bound ∧
        ∃ form : NodeForm, form.OccursIn pattern ∧ form.Binds tree name bound) ∧
    ∀ rule names children forbidden optional,
      pattern = .node rule names children forbidden optional → rule ≠ Pattern.descendants →
        ∀ name ∈ (if names = [] then [tree.rule node] else names),
          captures.contains name = true := by
  constructor
  · intro name bound found
    refine ⟨reaches_of_match_at matched found, ?_⟩
    obtain ⟨outer, listed, member⟩ := List.mem_flatMap.1 matched
    obtain ⟨form, within, binds⟩ :=
      (binds_of_match_form tree.size node outer captures member).of_find found
    exact ⟨form, occurs_of_node_form pattern listed within, binds⟩
  · rintro rule names children forbidden optional rfl shallow name listed
    rw [matchAt, Pattern.nodeForms, List.flatMap_singleton] at matched
    apply contains_of_match_form shallow _ captures matched
    split at listed
    · rename_i unnamed
      exact Or.inr ⟨unnamed, List.mem_singleton.1 listed⟩
    · exact Or.inl listed

def namedDefinition : Tree :=
  let span : Span := ⟨0, 0, 1, 0⟩
  ⟨#[⟨0, "module", "m", span, none, [1, 2]⟩, ⟨1, "comment", "c", span, some 0, []⟩,
    ⟨2, "def", "d", span, some 0, [3]⟩, ⟨3, "name", "f", span, some 2, []⟩], some 0⟩

def scopePattern : Pattern :=
  .node "module" []
    [.alternatives [.node ".+" ["scope"] [.node "name" [] [] [] false] ["comment"] false] true]
    [] false

theorem name_bound_by_nested_form :
    let captures := ((StringMap.empty.insert "module" 0).insert "name" 3).insert "scope" 2
    captures ∈ namedDefinition.matchAt 0 scopePattern ∧
      (∃ form : NodeForm, form.OccursIn scopePattern ∧ form.Binds namedDefinition "name" 3) ∧
      Relation.ReflTransGen namedDefinition.IsChild 0 3 ∧
      captures.contains "module" = true := by
  intro captures
  have matched : captures ∈ namedDefinition.matchAt 0 scopePattern := by decide +kernel
  obtain ⟨bindings, complete⟩ := match_binds_fitting_nodes matched
  obtain ⟨reaches, source⟩ := bindings "name" 3 (by decide +kernel)
  refine ⟨matched, source, reaches, complete _ _ _ _ _ rfl (by decide) "module" ?_⟩
  exact List.mem_singleton_self _

end Tree

end SyntaxGraph
