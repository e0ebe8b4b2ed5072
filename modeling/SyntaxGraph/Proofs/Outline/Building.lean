import SyntaxGraph.Proofs.Outline.Layout
import SyntaxGraph.Proofs.Tree.Extension

/-!
Outlines built by edits. Node after node is added and then listed under its parent; since a node that
has just been added is listed nowhere, no such edit is refused, and the tree that comes about is the one
that the outline stands for.
-/

set_option autoImplicit false

namespace SyntaxGraph

namespace TreeEdit

mutual

/-- Adds the nodes of an outline by edits, and lists its top under its parent if it has one. -/
def buildOutline (parent : Option NodeId) (start : Nat) : Outline → TreeEdit NodeId
  | .node rule text children => do
      let full := (Outline.node rule text children).fullText
      let id ← addNode parent rule full ⟨start, start + full.utf8ByteSize, 1, start⟩
      match parent with
      | some parent => attachChild parent id
      | none => pure ()
      buildOutlines id start children
      return id

def buildOutlines (parent : NodeId) (start : Nat) : List Outline → TreeEdit Unit
  | [] => pure ()
  | outline :: rest => do
      let _ ← buildOutline (some parent) start outline
      buildOutlines parent (start + outline.fullText.utf8ByteSize + 1) rest

end

open Outline

theorem build_under (parent : NodeId) (start : Nat) (rule : String) (text : Option String)
    (children : List Outline) :
    buildOutline (some parent) start (.node rule text children) =
      pushChild parent rule (Outline.node rule text children).fullText
        ⟨start, start + (Outline.node rule text children).fullText.utf8ByteSize, 1, start⟩ >>=
        fun id => buildOutlines id start children >>= fun _ => pure id := by
  rw [buildOutline]
  simp [pushChild]

mutual

theorem run_build_under (parent : NodeId) (start : Nat) :
    ∀ (outline : Outline) (tree : Tree), tree.WellFormed → tree.contains parent = true →
      ∃ after, (buildOutline (some parent) start outline).run.run tree = (.ok tree.size, after) ∧
        tree.Extends parent [tree.size] (layout (some parent) start tree.size outline) after
  | .node rule text children, tree, wellFormed, known => by
      let full := (Outline.node rule text children).fullText
      let span : Span := ⟨start, start + full.utf8ByteSize, 1, start⟩
      obtain ⟨ran, pushedWellFormed, topKnown⟩ := run_push_under known rule full span wellFormed
      obtain ⟨after, built, extended⟩ := run_build_siblings tree.size start children _
        pushedWellFormed topKnown
      rw [Tree.size_pushed_under] at extended
      refine ⟨after, ?_, extended.under⟩
      rw [build_under, run_bind, ran]
      dsimp only
      rw [run_bind, built]
      rfl

theorem run_build_siblings (parent : NodeId) (start : Nat) :
    ∀ (siblings : List Outline) (tree : Tree), tree.WellFormed → tree.contains parent = true →
      ∃ after, (buildOutlines parent start siblings).run.run tree = (.ok (), after) ∧
        tree.Extends parent (siblingIds tree.size siblings)
          (layoutAll parent start tree.size siblings) after
  | [], tree, wellFormed, _ => ⟨tree, rfl, wellFormed.extends_nothing parent⟩
  | outline :: rest, tree, wellFormed, known => by
      obtain ⟨middle, built, extended⟩ := run_build_under parent start outline tree wellFormed known
      have size := extended.size
      rw [length_layout] at size
      have stillKnown : middle.contains parent = true :=
        Tree.contains_mono (by rw [size]; exact Nat.le_add_right _ _) known
      obtain ⟨after, builtRest, later⟩ := run_build_siblings parent
        (start + outline.fullText.utf8ByteSize + 1) rest middle extended.wellFormed stillKnown
      rw [size] at later
      refine ⟨after, ?_, extended.append known later⟩
      rw [buildOutlines, run_bind, built]
      exact builtRest

end

/-- No edit is refused on the way, and the outcome is the tree of the outline. -/
theorem build_outline_yields_tree (outline : Outline) :
    (buildOutline none 0 outline).run.run .empty = (.ok 0, .ofOutline outline) := by
  obtain ⟨rule, text, children⟩ := outline
  let full := (Outline.node rule text children).fullText
  let top := Tree.withRoot rule full ⟨0, 0 + full.utf8ByteSize, 1, 0⟩
  obtain ⟨after, built, extended⟩ := run_build_siblings 0 0 children top
    (Tree.Reachable.withRoot _ _ _).wellFormed rfl
  have same : after = .ofOutline (.node rule text children) := by
    have sameNodes : after.nodes = (Tree.ofOutline (.node rule text children)).nodes := by
      rw [← Array.toList_inj, extended.held, Tree.of_outline_layout, layout]
      rfl
    obtain ⟨nodes, root⟩ := after
    cases sameNodes
    exact congrArg (Tree.mk _) extended.root
  have started : (buildOutline none 0 (.node rule text children)).run.run .empty =
      ((buildOutlines 0 0 children >>= fun _ => pure 0 : TreeEdit NodeId)).run.run top := by
    rw [buildOutline]
    rfl
  rw [started, run_bind, built, same]
  rfl

end TreeEdit

end SyntaxGraph
