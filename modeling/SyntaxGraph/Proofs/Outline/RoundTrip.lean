import SyntaxGraph.Proofs.Outline.Layout
import SyntaxGraph.Proofs.Outline.Reading

/-!
Trees and their outlines. Writing a subtree and growing a tree from what was written copies rules,
texts and nesting; if the tree was grown from an outline itself, numbers and spans come back too.
-/

set_option autoImplicit false

namespace SyntaxGraph

/-- What an outline says about one node: its rule, its text and how many children come next. -/
abbrev NodeLabel := String × Option String × Nat

namespace Outline

/-- The nodes of an outline, parents first. -/
def labels : Outline → List NodeLabel
  | .node rule text children => (rule, text, children.length) :: children.flatMap labels

theorem Writable.explicit {outline : Outline} (writable : outline.Writable) :
    outline.explicit.Writable := by
  induction writable with
  | node isRule _ induction =>
      rw [Outline.explicit]
      refine Writable.node isRule fun outline member => ?_
      obtain ⟨child, listed, rfl⟩ := List.mem_map.1 member
      exact induction child listed

mutual

theorem length_labels : ∀ outline : Outline, outline.labels.length = outline.size
  | .node rule text children => by
      rw [labels, List.length_cons, size_node, length_labels_all]

theorem length_labels_all : ∀ siblings : List Outline,
    (siblings.flatMap labels).length = sizes siblings
  | [] => rfl
  | outline :: rest => by
      rw [List.flatMap_cons, List.length_append, sizes_cons, length_labels, length_labels_all]

end

end Outline

namespace Tree

open Outline

def label (tree : Tree) (id : NodeId) : NodeLabel :=
  (tree.rule id, tree.text? id, (tree.children id).length)

variable {tree : Tree}

-- The outline of a subtree

theorem outline_within_succ (depth : Nat) (id : NodeId) :
    tree.outlineWithin (depth + 1) id =
      .node (tree.rule id) (tree.text? id) ((tree.children id).map (tree.outlineWithin depth)) := by
  rw [outlineWithin]
  cases found : tree.node? id with
  | none => simp [rule, text?, children, found]
  | some node => simp [rule, text?, children, found]

/-- The outline of a subtree lists its nodes in pre-order. -/
theorem labels_outline_within (depth : Nat) {id : NodeId} (fits : tree.FitsWithin depth id) :
    (tree.outlineWithin depth id).labels = (tree.subtreeWithin depth id).map tree.label := by
  induction depth generalizing id with
  | zero => exact fits.elim
  | succ depth induction =>
      rw [outline_within_succ, labels, subtreeWithin, List.map_cons, List.length_map,
        List.flatMap_map, List.map_flatMap, label]
      congr 1
      apply List.flatMap_congr
      intro child listed
      exact induction (fits child listed)

theorem outline_within_explicit (listsKnown : tree.ListsKnown) (depth : Nat) {id : NodeId}
    (known : tree.contains id = true) (fits : tree.FitsWithin depth id) :
    (tree.outlineWithin depth id).explicit = tree.outlineWithin depth id := by
  induction depth generalizing id with
  | zero => exact fits.elim
  | succ depth induction =>
      obtain ⟨node, found⟩ := node_of_known known
      have text : tree.text? id = some node.text := by rw [text?, found]; rfl
      rw [outline_within_succ, text, explicit, fullText, List.map_map]
      congr 1
      apply List.map_congr_left
      intro child listed
      exact induction (listsKnown id child listed) (fits child listed)

theorem outline_within_writable (depth : Nat) {id : NodeId}
    (rules : ∀ below, Relation.ReflTransGen tree.IsChild id below → IsRule (tree.rule below)) :
    (tree.outlineWithin depth id).Writable := by
  induction depth generalizing id with
  | zero => exact Writable.node (is_rule_of_all (by decide) rfl) (by simp)
  | succ depth induction =>
      rw [outline_within_succ]
      refine Writable.node (rules id Relation.ReflTransGen.refl) fun outline member => ?_
      obtain ⟨child, listed, rfl⟩ := List.mem_map.1 member
      exact induction fun below reaches => rules below (reaches.head listed)

-- The pre-order of a grown tree

mutual

theorem fits_within_layout (parent : Option NodeId) (start : Nat) (id : NodeId) :
    ∀ (outline : Outline) (depth : Nat), outline.size ≤ depth →
      tree.HoldsFrom id (layout parent start id outline) → tree.FitsWithin depth id
  | .node rule text children, 0, enough, _ => by
      rw [size_node] at enough
      omega
  | .node rule text children, depth + 1, enough, holds => by
      rw [size_node] at enough
      rw [layout] at holds
      have listed : tree.children id = siblingIds (id + 1) children := by
        rw [Tree.children, holds.node]
        rfl
      rw [FitsWithin, listed]
      exact all_fit_within_layout id start (id + 1) children depth (by omega) holds.tail

theorem all_fit_within_layout (parent : NodeId) (start : Nat) (id : NodeId) :
    ∀ (siblings : List Outline) (depth : Nat), sizes siblings ≤ depth →
      tree.HoldsFrom id (layoutAll parent start id siblings) →
        ∀ sibling ∈ siblingIds id siblings, tree.FitsWithin depth sibling
  | [], _, _, _ => by simp [siblingIds]
  | outline :: rest, depth, enough, holds => by
      rw [sizes_cons] at enough
      rw [layoutAll] at holds
      have behind := holds.right
      rw [length_layout] at behind
      intro sibling member
      rcases List.mem_cons.1 member with same | later
      · rw [same]
        exact fits_within_layout _ _ _ outline depth (by omega) holds.left
      · exact all_fit_within_layout _ _ _ rest depth (by omega) behind sibling later

end

theorem preorder_of_outline (outline : Outline) :
    (ofOutline outline).preorder.map (ofOutline outline).label = outline.explicit.labels := by
  have size := size_of_outline outline
  have fits : (ofOutline outline).FitsWithin (ofOutline outline).size 0 :=
    fits_within_layout none 0 0 outline _ (Nat.le_of_eq size.symm) (of_outline_holds outline)
  have labelled := labels_outline_within _ fits
  rw [outline_within_of_outline] at labelled
  have length : ((ofOutline outline).subtree 0).length = (ofOutline outline).size := by
    rw [size, ← size_explicit, ← length_labels, labelled, List.length_map, subtree]
  have walked : (ofOutline outline).preorder = (ofOutline outline).subtree 0 := by
    have stack := preorder_stack_of_fits (ofOutline outline).size [0]
      (List.forall_mem_singleton.2 fits) (by simp [length])
    simpa [preorder, ofOutline] using stack
  rw [walked, subtree, labelled]

-- Round trips

theorem parse_outline_render {outline : Outline} (writable : outline.Writable) :
    parseOutline outline.render = .ok (ofOutline outline) := by
  rw [parseOutline, writable.parse_render]
  rfl

theorem grown_of_parse_outline {source : String} (parsed : parseOutline source = .ok tree) :
    ∃ outline, Outline.parse source = .ok outline ∧ ofOutline outline = tree := by
  cases read : Outline.parse source with
  | error error => simp [parseOutline, read, Except.map] at parsed
  | ok outline => exact ⟨outline, rfl, by simpa [parseOutline, read, Except.map] using parsed⟩

/-- A grown tree is grown again from its own outline: numbers, spans and links included. -/
theorem parsed_outline_again {source : String} (parsed : parseOutline source = .ok tree) :
    ∃ written, tree.toOutline? 0 = some written ∧ parseOutline written = .ok tree := by
  obtain ⟨outline, read, grown⟩ := grown_of_parse_outline parsed
  have known : (ofOutline outline).contains 0 = true := by
    rw [contains, size_of_outline]
    obtain ⟨rule, text, children⟩ := outline
    simp [size_node]
  refine ⟨outline.explicit.render, ?_, ?_⟩
  · rw [← grown, toOutline?, if_pos known, outline_within_of_outline]
  · rw [parse_outline_render (writable_of_parse read).explicit, of_outline_explicit, grown]

/-- What is written of a subtree grows into a copy of it. -/
theorem subtree_outline_copies (listsKnown : tree.ListsKnown) (acyclic : tree.Acyclic)
    {node : NodeId} (known : tree.contains node = true)
    (rules : ∀ below, Relation.ReflTransGen tree.IsChild node below → IsRule (tree.rule below)) :
    ∃ written copy, tree.toOutline? node = some written ∧ parseOutline written = .ok copy ∧
      copy.root = some 0 ∧
      copy.outlineWithin copy.size 0 = tree.outlineWithin tree.size node ∧
      copy.preorder.map copy.label = (tree.subtree node).map tree.label := by
  have fits := listsKnown.fits_within_size acyclic known
  have same := outline_within_explicit listsKnown tree.size known fits
  refine ⟨_, ofOutline (tree.outlineWithin tree.size node), if_pos known,
    parse_outline_render (outline_within_writable tree.size rules), rfl, ?_, ?_⟩
  · rw [outline_within_of_outline, same]
  · rw [preorder_of_outline, same, labels_outline_within _ fits, subtree]

/-- Outlines that are read come back, with the tree equal in every part, and every subtree whose
rules can be written comes back with its shape, rules and texts, whatever the texts hold. -/
theorem outline_round_trip :
    (∀ source tree, parseOutline source = .ok tree →
      ∃ root written, tree.root = some root ∧ tree.toOutline? root = some written ∧
        parseOutline written = .ok tree) ∧
    ∀ (tree : Tree) (node : NodeId), tree.ListsKnown → tree.Acyclic → tree.contains node = true →
      (∀ below, Relation.ReflTransGen tree.IsChild node below → IsRule (tree.rule below)) →
        ∃ written copy, tree.toOutline? node = some written ∧ parseOutline written = .ok copy ∧
          copy.root = some 0 ∧
          copy.outlineWithin copy.size 0 = tree.outlineWithin tree.size node ∧
          copy.preorder.map copy.label = (tree.subtree node).map tree.label := by
  constructor
  · intro source tree parsed
    have rooted : tree.root = some 0 := by
      obtain ⟨outline, -, grown⟩ := grown_of_parse_outline parsed
      rw [← grown]
      rfl
    obtain ⟨written, shown, again⟩ := parsed_outline_again parsed
    exact ⟨0, written, rooted, shown, again⟩
  · exact fun tree node listsKnown acyclic known rules =>
      subtree_outline_copies listsKnown acyclic known rules

def quotedCall : Tree where
  nodes := #[⟨0, "call", "say(\"hi\")\\", ⟨0, 0, 1, 0⟩, none, [1, 2]⟩,
    ⟨1, "", "\n,)=", ⟨0, 0, 1, 0⟩, some 0, []⟩, ⟨2, "arg-1.x_", "é\\\"", ⟨0, 0, 1, 0⟩, some 0, []⟩]
  root := some 0

theorem quoted_call_copied :
    quotedCall.ListsKnown ∧ quotedCall.Acyclic ∧ quotedCall.contains 0 = true ∧
      (∀ below, Relation.ReflTransGen quotedCall.IsChild 0 below →
        IsRule (quotedCall.rule below)) ∧
      ∃ written copy, quotedCall.toOutline? 0 = some written ∧ parseOutline written = .ok copy ∧
        copy.preorder.map copy.label = [("call", some "say(\"hi\")\\", 2), ("", some "\n,)=", 0),
          ("arg-1.x_", some "é\\\"", 0)] ∧
        ∃ root again, copy.root = some root ∧ copy.toOutline? root = some again ∧
          parseOutline again = .ok copy := by
  have consistent : quotedCall.Consistent := consistent_of_arena (by decide) (by decide)
  have acyclic : quotedCall.Acyclic := acyclic_of_downward (by decide)
  have known : quotedCall.contains 0 = true := by decide
  have rules : ∀ below, Relation.ReflTransGen quotedCall.IsChild 0 below →
      IsRule (quotedCall.rule below) := by
    intro below reaches
    have inside : below < 3 := of_decide_eq_true (consistent.known_of_reaches known reaches)
    match below, inside with
    | 0, _ => exact is_rule_of_all (by decide) (by decide)
    | 1, _ => exact is_rule_of_all (by decide) (by decide)
    | 2, _ => exact is_rule_of_all (by decide) (by decide)
  obtain ⟨written, copy, shown, parsed, -, -, labels⟩ :=
    outline_round_trip.2 quotedCall 0 consistent.lists_known acyclic known rules
  refine ⟨consistent.lists_known, acyclic, known, rules, written, copy, shown, parsed, ?_,
    outline_round_trip.1 written copy parsed⟩
  rw [labels]
  decide

end Tree

end SyntaxGraph
