import SyntaxGraph.Proofs.Tree.Numbering
import SyntaxGraph.Tree.Outline

/-!
Where the nodes of an outline come to stand. A tree grown from an outline holds its nodes in
pre-order, each with its text filled in, so the outline with all texts filled in can be read off
the tree again.
-/

set_option autoImplicit false

namespace SyntaxGraph

namespace Outline

def sizes (siblings : List Outline) : Nat := (siblings.map size).foldl (· + ·) 0

def siblingIds (id : NodeId) : List Outline → List NodeId
  | [] => []
  | outline :: rest => id :: siblingIds (id + outline.size) rest

mutual

def layout (parent : Option NodeId) (start : Nat) (id : NodeId) : Outline → List Node
  | .node rule text children =>
      let full := (Outline.node rule text children).fullText
      ⟨id, rule, full, ⟨start, start + full.utf8ByteSize, 1, start⟩, parent,
        siblingIds (id + 1) children⟩ :: layoutAll id start (id + 1) children

def layoutAll (parent : NodeId) (start : Nat) (id : NodeId) : List Outline → List Node
  | [] => []
  | outline :: rest =>
      layout (some parent) start id outline ++
        layoutAll parent (start + outline.fullText.utf8ByteSize + 1) (id + outline.size) rest

end

/-- The same outline with the texts of all nodes written. -/
def explicit : Outline → Outline
  | .node rule text children =>
      .node rule (some (Outline.node rule text children).fullText) (children.map explicit)

theorem foldl_add (start : Nat) (counts : List Nat) :
    counts.foldl (· + ·) start = start + counts.foldl (· + ·) 0 := by
  induction counts generalizing start with
  | nil => rfl
  | cons count counts induction =>
      rw [List.foldl_cons, List.foldl_cons, induction, induction (0 + count)]
      omega

theorem size_node (rule : String) (text : Option String) (children : List Outline) :
    (Outline.node rule text children).size = sizes children + 1 := by
  rw [size, foldl_add, sizes, Nat.add_comm]

theorem sizes_cons (first : Outline) (others : List Outline) :
    sizes (first :: others) = first.size + sizes others := by
  rw [sizes, List.map_cons, List.foldl_cons, foldl_add, Nat.zero_add, sizes]

mutual

theorem length_layout (parent : Option NodeId) (start : Nat) (id : NodeId) :
    ∀ outline : Outline, (layout parent start id outline).length = outline.size
  | .node rule text children => by
      rw [layout, size_node, List.length_cons, length_layout_all]

theorem length_layout_all (parent : NodeId) (start : Nat) (id : NodeId) :
    ∀ siblings : List Outline, (layoutAll parent start id siblings).length = sizes siblings
  | [] => rfl
  | outline :: rest => by
      rw [layoutAll, sizes_cons, List.length_append, length_layout, length_layout_all]

end

-- Written texts

theorem full_text_explicit (outline : Outline) : outline.explicit.fullText = outline.fullText := by
  obtain ⟨rule, text, children⟩ := outline
  rw [explicit, fullText]

mutual

theorem size_explicit : ∀ outline : Outline, outline.explicit.size = outline.size
  | .node rule text children => by
      rw [explicit, size_node, size_node, sizes_explicit]

theorem sizes_explicit : ∀ siblings : List Outline, sizes (siblings.map explicit) = sizes siblings
  | [] => rfl
  | outline :: rest => by
      rw [List.map_cons, sizes_cons, sizes_cons, size_explicit, sizes_explicit]

end

theorem sibling_ids_explicit (id : NodeId) (siblings : List Outline) :
    siblingIds id (siblings.map explicit) = siblingIds id siblings := by
  induction siblings generalizing id with
  | nil => rfl
  | cons outline rest induction =>
      rw [List.map_cons, siblingIds, siblingIds, size_explicit, induction]

mutual

/-- Writing the texts changes nothing about the nodes. -/
theorem layout_explicit (parent : Option NodeId) (start : Nat) (id : NodeId) :
    ∀ outline : Outline, layout parent start id outline.explicit = layout parent start id outline
  | .node rule text children => by
      have sameText := full_text_explicit (.node rule text children)
      rw [explicit] at sameText ⊢
      rw [layout, layout, sameText, sibling_ids_explicit, layout_all_explicit]

theorem layout_all_explicit (parent : NodeId) (start : Nat) (id : NodeId) :
    ∀ siblings : List Outline,
      layoutAll parent start id (siblings.map explicit) = layoutAll parent start id siblings
  | [] => rfl
  | outline :: rest => by
      rw [List.map_cons, layoutAll, layoutAll, layout_explicit, full_text_explicit, size_explicit,
        layout_all_explicit]

end

end Outline

namespace Tree

open Outline

-- From an outline to a tree

mutual

theorem add_outline_layout (parent : Option NodeId) (start : Nat) :
    ∀ (outline : Outline) (tree : Tree),
      (tree.addOutline parent start outline).nodes.toList =
        tree.nodes.toList ++ layout parent start tree.size outline
  | .node rule text children, tree => by
      have below := add_outlines_layout tree.size start children
        (tree.push parent rule (Outline.node rule text children).fullText
          ⟨start, start + (Outline.node rule text children).fullText.utf8ByteSize, 1, start⟩)
      rw [size_push] at below
      rw [addOutline, layout]
      dsimp only
      rw [below.1]
      exact set_children_behind _ below.2

theorem add_outlines_layout (parent : NodeId) (start : Nat) :
    ∀ (siblings : List Outline) (tree : Tree),
      (addOutlines parent start siblings tree).1 = siblingIds tree.size siblings ∧
        (addOutlines parent start siblings tree).2.nodes.toList =
          tree.nodes.toList ++ layoutAll parent start tree.size siblings
  | [], tree => by simp [addOutlines, siblingIds, layoutAll]
  | outline :: rest, tree => by
      have grown := add_outline_layout (some parent) start outline tree
      have size : (tree.addOutline (some parent) start outline).size = tree.size + outline.size := by
        have length := congrArg List.length grown
        rw [List.length_append, length_layout] at length
        exact length
      have behind := add_outlines_layout parent (start + outline.fullText.utf8ByteSize + 1) rest
        (tree.addOutline (some parent) start outline)
      rw [size, grown] at behind
      rw [addOutlines, siblingIds, layoutAll]
      exact ⟨congrArg _ behind.1, by rw [behind.2, List.append_assoc]⟩

end

theorem of_outline_layout (outline : Outline) :
    (ofOutline outline).nodes.toList = layout none 0 0 outline := by
  have grown := add_outline_layout none 0 outline .empty
  simpa [ofOutline, empty, Tree.size] using grown

/-- What an outline says without its texts says the same with them. -/
theorem of_outline_explicit (outline : Outline) :
    ofOutline outline.explicit = ofOutline outline := by
  have sameNodes : (ofOutline outline.explicit).nodes = (ofOutline outline).nodes := by
    rw [← Array.toList_inj, of_outline_layout, of_outline_layout, layout_explicit]
  exact congrArg (Tree.mk · (some 0)) sameNodes

theorem of_outline_holds (outline : Outline) :
    (ofOutline outline).HoldsFrom 0 (layout none 0 0 outline) := by
  rw [← of_outline_layout]
  exact holds_from_start _

theorem size_of_outline (outline : Outline) : (ofOutline outline).size = outline.size := by
  rw [← length_layout none 0 0 outline, ← of_outline_layout]
  rfl

-- From the tree back to the outline

variable {tree : Tree}

mutual

theorem outline_within_layout (parent : Option NodeId) (start : Nat) (id : NodeId) :
    ∀ (outline : Outline) (depth : Nat), outline.size ≤ depth →
      tree.HoldsFrom id (layout parent start id outline) →
        tree.outlineWithin depth id = outline.explicit
  | .node rule text children, 0, enough, _ => by
      rw [size_node] at enough
      omega
  | .node rule text children, depth + 1, enough, holds => by
      rw [size_node] at enough
      rw [layout] at holds
      rw [outlineWithin, holds.node, explicit]
      dsimp only
      rw [outlines_within_layout id start (id + 1) children depth (by omega) holds.tail]

theorem outlines_within_layout (parent : NodeId) (start : Nat) (id : NodeId) :
    ∀ (siblings : List Outline) (depth : Nat), sizes siblings ≤ depth →
      tree.HoldsFrom id (layoutAll parent start id siblings) →
        (siblingIds id siblings).map (tree.outlineWithin depth) = siblings.map explicit
  | [], _, _, _ => rfl
  | outline :: rest, depth, enough, holds => by
      rw [sizes_cons] at enough
      rw [layoutAll] at holds
      have behind := holds.right
      rw [length_layout] at behind
      rw [siblingIds, List.map_cons, List.map_cons,
        outline_within_layout _ _ _ outline depth (by omega) holds.left,
        outlines_within_layout _ _ _ rest depth (by omega) behind]

end

theorem outline_within_of_outline (outline : Outline) :
    (ofOutline outline).outlineWithin (ofOutline outline).size 0 = outline.explicit :=
  outline_within_layout none 0 0 outline _ (Nat.le_of_eq (size_of_outline outline).symm)
    (of_outline_holds outline)

end Tree

end SyntaxGraph
