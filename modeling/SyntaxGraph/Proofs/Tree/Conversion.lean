import SyntaxGraph.Proofs.Text.Slices
import SyntaxGraph.Proofs.Tree.Extension
import SyntaxGraph.Proofs.Tree.Numbering
import Mathlib.Data.List.Forall2

/-!
What conversion makes of concrete syntax. Working off a pending node adds its whole subtree behind
the nodes that are there already, and lists its top last under the node that waits for it. So the
numbers follow the pre-order; and no edit is refused, since a node that has just been added is listed
nowhere.
-/

set_option autoImplicit false

namespace SyntaxGraph

/-- A concrete node as it comes in pre-order, with the position of its parent there and the number
of its children. -/
structure ConcreteEntry where
  token : ConcreteToken
  parent : Option Nat
  arity : Nat

namespace ConcreteTree

mutual

def entriesFrom (parent : Option Nat) (position : Nat) : ConcreteTree → List ConcreteEntry
  | .node token children =>
      ⟨token, parent, children.length⟩ :: entriesBelow position (position + 1) children

def entriesBelow (parent position : Nat) : List ConcreteTree → List ConcreteEntry
  | [] => []
  | first :: rest =>
      entriesFrom (some parent) position first ++ entriesBelow parent (position + first.size) rest

end

def entries (concrete : ConcreteTree) : List ConcreteEntry := concrete.entriesFrom none 0

def siblingIds (id : NodeId) : List ConcreteTree → List NodeId
  | [] => []
  | first :: rest => id :: siblingIds (id + first.size) rest

mutual

/-- The nodes of the converted tree in the order of their numbers, the first of which is given. -/
def layout (source : String) (parent : Option NodeId) (id : NodeId) : ConcreteTree → List Node
  | .node token children =>
      ⟨id, token.rule, token.text source, token.span, parent, siblingIds (id + 1) children⟩ ::
        layoutAll source id (id + 1) children

def layoutAll (source : String) (parent : NodeId) (id : NodeId) : List ConcreteTree → List Node
  | [] => []
  | first :: rest =>
      layout source (some parent) id first ++ layoutAll source parent (id + first.size) rest

end

theorem length_sibling_ids (id : NodeId) (siblings : List ConcreteTree) :
    (siblingIds id siblings).length = siblings.length := by
  induction siblings generalizing id with
  | nil => rfl
  | cons first rest induction => rw [siblingIds, List.length_cons, induction, List.length_cons]

mutual

theorem length_layout (source : String) (parent : Option NodeId) (id : NodeId) :
    ∀ concrete : ConcreteTree, (layout source parent id concrete).length = concrete.size
  | .node token children => by
      rw [layout, size, List.length_cons, length_layout_all]

theorem length_layout_all (source : String) (parent : NodeId) (id : NodeId) :
    ∀ siblings : List ConcreteTree, (layoutAll source parent id siblings).length = sizes siblings
  | [] => rfl
  | first :: rest => by
      rw [layoutAll, sizes, List.length_append, length_layout, length_layout_all]

end

mutual

/-- The nodes laid out one after another are a subtree in pre-order. -/
theorem block_of_layout {tree : Tree} (source : String) (parent : Option NodeId) (id : Nat) :
    ∀ concrete : ConcreteTree, tree.HoldsFrom id (layout source parent id concrete) →
      tree.Block parent id (id + concrete.size)
  | .node token children, holds => by
      rw [layout] at holds
      have below := blocks_of_layout source id (id + 1) children holds.tail
      rw [size, Nat.add_comm _ 1, ← Nat.add_assoc]
      exact .node holds.node rfl below

theorem blocks_of_layout {tree : Tree} (source : String) (parent id : Nat) :
    ∀ siblings : List ConcreteTree, tree.HoldsFrom id (layoutAll source parent id siblings) →
      tree.Blocks parent id (siblingIds id siblings) (id + sizes siblings)
  | [], _ => .done
  | first :: rest, holds => by
      rw [layoutAll] at holds
      have behind := holds.right
      rw [length_layout] at behind
      have later := blocks_of_layout source parent (id + first.size) rest behind
      rw [sizes, ← Nat.add_assoc]
      exact .more (block_of_layout source (some parent) id first holds.left) later

end

end ConcreteTree

/-- What a node keeps of a concrete one: the kind as rule if it is named; as text what stands between
its bytes, and nothing where these cut a character or leave the source; lines counted from one. -/
structure ConcreteEntry.KeptBy (source : String) (entry : ConcreteEntry) (node : Node) : Prop where
  rule : node.rule = if entry.token.named then entry.token.kind else ""
  text : StandsBetween source entry.token.startByte entry.token.endByte node.text ∨
    node.text = "" ∧
      ¬∃ slice, StandsBetween source entry.token.startByte entry.token.endByte slice
  span : node.span =
    ⟨entry.token.startByte, entry.token.endByte, entry.token.row + 1, entry.token.column⟩
  parent : node.parent = entry.parent
  arity : node.children.length = entry.arity

namespace ConcreteTree

mutual

theorem entries_kept (source : String) (parent : Option Nat) (id : Nat) :
    ∀ concrete : ConcreteTree,
      List.Forall₂ (ConcreteEntry.KeptBy source) (entriesFrom parent id concrete)
        (layout source parent id concrete)
  | .node token children => by
      rw [entriesFrom, layout]
      refine .cons ⟨rfl, token.text_stands_between source, rfl, rfl, ?_⟩
        (entries_below_kept source id (id + 1) children)
      exact length_sibling_ids (id + 1) children

theorem entries_below_kept (source : String) (parent id : Nat) :
    ∀ siblings : List ConcreteTree,
      List.Forall₂ (ConcreteEntry.KeptBy source) (entriesBelow parent id siblings)
        (layoutAll source parent id siblings)
  | [] => .nil
  | first :: rest => by
      rw [entriesBelow, layoutAll]
      exact List.rel_append (entries_kept source (some parent) id first)
        (entries_below_kept source parent (id + first.size) rest)

end

end ConcreteTree

namespace TreeEdit

open SyntaxGraph.Tree ConcreteTree

variable {tree : Tree} {parent : NodeId}

theorem run_convert_pending (source : String) (token : ConcreteToken) (children : List ConcreteTree)
    (pending : List (Option NodeId × ConcreteTree)) :
    convertPending source ((some parent, .node token children) :: pending) =
      pushChild parent token.rule (token.text source) token.span >>= fun id =>
        convertPending source (children.map (some id, ·) ++ pending) := by
  rw [convertPending]
  simp [pushChild]

mutual

theorem convert_pending_tree (source : String) (parent : NodeId) :
    ∀ (concrete : ConcreteTree) (tree : Tree) (pending : List (Option NodeId × ConcreteTree)),
      tree.WellFormed → tree.contains parent = true →
        ∃ after, tree.Extends parent [tree.size] (layout source (some parent) tree.size concrete)
            after ∧
          (convertPending source ((some parent, concrete) :: pending)).run.run tree =
            (convertPending source pending).run.run after
  | .node token children, tree, pending, wellFormed, known => by
      let pushed := tree.pushedUnder parent token.rule (token.text source) token.span
      obtain ⟨ran, pushedWellFormed, topKnown⟩ := run_push_under known token.rule (token.text source)
        token.span wellFormed
      obtain ⟨after, extended, continued⟩ := convert_pending_siblings source tree.size children
        pushed pending pushedWellFormed topKnown
      rw [size_pushed_under] at extended
      refine ⟨after, extended.under, ?_⟩
      rw [run_convert_pending, run_bind, ran]
      exact continued

theorem convert_pending_siblings (source : String) (parent : NodeId) :
    ∀ (siblings : List ConcreteTree) (tree : Tree)
      (pending : List (Option NodeId × ConcreteTree)),
      tree.WellFormed → tree.contains parent = true →
        ∃ after, tree.Extends parent (siblingIds tree.size siblings)
            (layoutAll source parent tree.size siblings) after ∧
          (convertPending source (siblings.map (some parent, ·) ++ pending)).run.run tree =
            (convertPending source pending).run.run after
  | [], tree, pending, wellFormed, _ => ⟨tree, wellFormed.extends_nothing parent, rfl⟩
  | first :: rest, tree, pending, wellFormed, known => by
      obtain ⟨middle, extended, stepped⟩ := convert_pending_tree source parent first tree
        (rest.map (some parent, ·) ++ pending) wellFormed known
      have size := extended.size
      rw [length_layout] at size
      have stillKnown : middle.contains parent = true :=
        contains_mono (by rw [size]; exact Nat.le_add_right _ _) known
      obtain ⟨after, later, continued⟩ := convert_pending_siblings source parent rest middle pending
        extended.wellFormed stillKnown
      rw [size] at later
      exact ⟨after, extended.append known later, stepped.trans continued⟩

end

theorem convert_layout (source : String) (concrete : ConcreteTree) :
    ∃ tree, (convert source concrete).run.run .empty = (.ok (), tree) ∧ tree.WellFormed ∧
      tree.root = some 0 ∧ tree.nodes.toList = layout source none 0 concrete := by
  obtain ⟨token, children⟩ := concrete
  let top := Tree.withRoot token.rule (token.text source) token.span
  have topWellFormed : top.WellFormed := (Reachable.withRoot _ _ _).wellFormed
  obtain ⟨tree, extended, continued⟩ := convert_pending_siblings source 0 children top [] topWellFormed
    rfl
  have started : (convert source (.node token children)).run.run .empty =
      (convertPending source (children.map (some 0, ·) ++ [])).run.run top := by
    rw [convert, convertPending]
    rfl
  refine ⟨tree, ?_, extended.wellFormed, extended.root, ?_⟩
  · rw [started, continued, convertPending]
    rfl
  · rw [extended.held, layout]
    rfl

end TreeEdit

/-- Every concrete tree is converted: into as many nodes, numbered in pre-order, each of which keeps
what the concrete node in its place says. -/
theorem TreeEdit.convert_keeps_concrete_nodes (source : String) (concrete : ConcreteTree) :
    (TreeEdit.convert source concrete).run.run .empty = (.ok (), .ofConcrete source concrete) ∧
      (Tree.ofConcrete source concrete).size = concrete.size ∧
      (Tree.ofConcrete source concrete).NumberedInPreorder ∧
      ∀ position, position < concrete.size → ∃ entry node,
        concrete.entries[position]? = some entry ∧
          (Tree.ofConcrete source concrete).node? position = some node ∧ node.id = position ∧
          entry.KeptBy source node := by
  obtain ⟨tree, ran, wellFormed, rooted, held⟩ := TreeEdit.convert_layout source concrete
  have left : Tree.ofConcrete source concrete = tree := by rw [Tree.ofConcrete, ran]
  rw [left]
  have size : tree.size = concrete.size := by
    rw [← ConcreteTree.length_layout source none 0, ← held]
    rfl
  have block : tree.Block none 0 tree.size := by
    have holds := tree.holds_from_start
    rw [held] at holds
    have block := ConcreteTree.block_of_layout source none 0 concrete holds
    rwa [Nat.zero_add, ← size] at block
  refine ⟨ran, size, block.numbered rooted, fun position inside => ?_⟩
  have kept := ConcreteTree.entries_kept source none 0 concrete
  rw [← held] at kept
  have known : position < tree.nodes.toList.length := Nat.lt_of_lt_of_eq inside size.symm
  have listed : position < concrete.entries.length := Nat.lt_of_lt_of_eq known kept.length_eq.symm
  have issued : tree.node? position = some tree.nodes.toList[position] := by
    rw [Tree.node?, ← Array.getElem?_toList, List.getElem?_eq_getElem known]
  exact ⟨_, _, List.getElem?_eq_getElem listed, issued,
    wellFormed.id_of_position position _ issued, kept.get listed known⟩

end SyntaxGraph
