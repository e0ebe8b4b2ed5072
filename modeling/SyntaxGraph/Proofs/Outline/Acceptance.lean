import SyntaxGraph.Proofs.Outline.Layout
import SyntaxGraph.Proofs.Outline.Sentences

/-!
Which texts are outlines, and of which trees. The tree has one node for each node of the derivation,
numbered in pre-order; a text that is left out is the rule of a leaf, and of an inner node the texts
of its children, one space apart.
-/

set_option autoImplicit false

namespace SyntaxGraph

namespace Tree

open Outline

def impliedText (tree : Tree) (node : Node) : String :=
  if node.children.isEmpty then node.rule
  else " ".intercalate (node.children.map fun child => (tree.text? child).getD "")

/-- The subtree of a node is the one that the outline describes. -/
inductive Shows (tree : Tree) : NodeId → Outline → Prop
  | node {id : NodeId} {node : Node} {rule : String} {text : Option String}
      {children : List Outline} (found : tree.node? id = some node) (ruled : node.rule = rule)
      (texted : node.text = text.getD (tree.impliedText node))
      (below : List.Forall₂ (tree.Shows) node.children children) :
      Shows tree id (.node rule text children)

variable {tree : Tree}

mutual

theorem block_of_outline (parent : Option NodeId) (start id : Nat) :
    ∀ outline : Outline, tree.HoldsFrom id (layout parent start id outline) →
      tree.Block parent id (id + outline.size)
  | .node rule text children, holds => by
      rw [layout] at holds
      have below := blocks_of_outlines id start (id + 1) children holds.tail
      rw [Outline.size_node, Nat.add_comm _ 1, ← Nat.add_assoc]
      exact .node holds.node rfl below

theorem blocks_of_outlines (parent start id : Nat) :
    ∀ siblings : List Outline, tree.HoldsFrom id (layoutAll parent start id siblings) →
      tree.Blocks parent id (siblingIds id siblings) (id + sizes siblings)
  | [], _ => .done
  | outline :: rest, holds => by
      rw [layoutAll] at holds
      have behind := holds.right
      rw [length_layout] at behind
      have later := blocks_of_outlines parent _ (id + outline.size) rest behind
      rw [sizes_cons, ← Nat.add_assoc]
      exact .more (block_of_outline (some parent) start id outline holds.left) later

end

theorem text_of_layout {parent : Option NodeId} {start id : Nat} {outline : Outline}
    (holds : tree.HoldsFrom id (layout parent start id outline)) :
    tree.text? id = some outline.fullText := by
  obtain ⟨rule, text, children⟩ := outline
  rw [layout] at holds
  rw [text?, holds.node]
  rfl

theorem texts_of_layout (parent start id : Nat) (siblings : List Outline)
    (holds : tree.HoldsFrom id (layoutAll parent start id siblings)) :
    ((siblingIds id siblings).map fun sibling => (tree.text? sibling).getD "") =
      siblings.map fullText := by
  induction siblings generalizing start id with
  | nil => rfl
  | cons outline rest induction =>
      rw [layoutAll] at holds
      have behind := holds.right
      rw [length_layout] at behind
      rw [siblingIds, List.map_cons, List.map_cons, text_of_layout holds.left,
        induction _ _ behind]
      rfl

mutual

theorem shows_layout (parent : Option NodeId) (start id : Nat) :
    ∀ outline : Outline, tree.HoldsFrom id (layout parent start id outline) →
      tree.Shows id outline
  | .node rule text children, holds => by
      rw [layout] at holds
      refine .node holds.node rfl ?_ (all_show_layout id start (id + 1) children holds.tail)
      cases text with
      | some text => exact fullText.eq_def _
      | none =>
          have texts := texts_of_layout id start (id + 1) children holds.tail
          cases children with
          | nil => exact fullText.eq_def _
          | cons first others =>
              rw [Option.getD_none, impliedText, texts]
              exact fullText.eq_def _

theorem all_show_layout (parent start id : Nat) :
    ∀ siblings : List Outline, tree.HoldsFrom id (layoutAll parent start id siblings) →
      List.Forall₂ tree.Shows (siblingIds id siblings) siblings
  | [], _ => .nil
  | outline :: rest, holds => by
      rw [layoutAll] at holds
      have behind := holds.right
      rw [length_layout] at behind
      exact .cons (shows_layout (some parent) start id outline holds.left)
        (all_show_layout parent _ (id + outline.size) rest behind)

end

theorem of_outline_shows (outline : Outline) :
    (ofOutline outline).NumberedInPreorder ∧ (ofOutline outline).Shows 0 outline := by
  have holds := of_outline_holds outline
  have block := block_of_outline none 0 0 outline holds
  rw [Nat.zero_add, ← size_of_outline] at block
  exact ⟨block.numbered rfl, shows_layout none 0 0 outline holds⟩

/-- Exactly the texts that spell a sentence of the notation are read, each as the tree of its
derivation. Any other text is refused, at a position inside of it. -/
theorem parse_outline_accepts_sentences (source : String) :
    ((∃ tree, parseOutline source = .ok tree) ↔ ∃ outline : Outline, outline.SpeltBy source) ∧
      (∀ outline : Outline, outline.SpeltBy source →
        ∃ tree, parseOutline source = .ok tree ∧ tree.size = outline.size ∧
          tree.NumberedInPreorder ∧ tree.Shows 0 outline) ∧
      ((¬∃ outline : Outline, outline.SpeltBy source) →
        ∃ error, parseOutline source = .error error ∧ error.position ≤ source.utf8ByteSize ∧
          ∃ read left, source = read ++ left ∧ error.position = read.utf8ByteSize) := by
  have accepted : ∀ outline : Outline, outline.SpeltBy source →
      parseOutline source = .ok (ofOutline outline) := by
    intro outline spelt
    rw [parseOutline, parse_iff_spelt.2 spelt]
    rfl
  refine ⟨⟨?_, ?_⟩, ?_, ?_⟩
  · rintro ⟨tree, parsed⟩
    cases read : Outline.parse source with
    | error error => simp [parseOutline, read, Except.map] at parsed
    | ok outline => exact ⟨outline, parse_iff_spelt.1 read⟩
  · rintro ⟨outline, spelt⟩
    exact ⟨_, accepted outline spelt⟩
  · intro outline spelt
    exact ⟨_, accepted outline spelt, size_of_outline outline, of_outline_shows outline⟩
  · intro noSentence
    cases refused : Outline.parse source with
    | ok outline => exact absurd ⟨outline, parse_iff_spelt.1 refused⟩ noSentence
    | error error =>
        obtain ⟨read, left, split, position⟩ := position_of_error refused
        refine ⟨error, ?_, ?_, read, left, split, position⟩
        · rw [parseOutline, refused]
          rfl
        · rw [position, split, String.utf8ByteSize_append]
          exact Nat.le_add_right _ _

/-- Blanks between tokens, a quote that is taken literally, and both ways to have no children; and a
node that is not closed. -/
theorem spaced_sentence_accepted :
    ∃ outline tree, outline = .node "f" (some "\"") [.node "" none [], .node "g" none []] ∧
      outline.SpeltBy "f=\"\\\"\" ( _,g())" ∧
      parseOutline "f=\"\\\"\" ( _,g())" = .ok tree ∧ tree.NumberedInPreorder ∧
      tree.Shows 0 outline ∧ (¬∃ outline : Outline, outline.SpeltBy "f(g") ∧
      ∃ error, parseOutline "f(g" = .error error ∧ error.position ≤ "f(g".utf8ByteSize := by
  let source := "f=\"\\\"\" ( _,g())"
  have chars : source.toList =
      ['f', '=', '"', '\\', '"', '"', ' ', '(', ' ', '_', ',', 'g', '(', ')', ')'] := by decide
  have terminal : Derives (.node "" none []) [.word ['_']] := @Derives.node ['_'] none [] [] .absent
  have call : Derives (.node "g" none []) [.word ['g'], .opening, .closing] :=
    @Derives.node ['g'] none [] _ .empty
  have siblings := DerivesSiblings.more terminal (.last call)
  have derives := @Derives.node ['f'] (some "\"") _ _ (.siblings siblings)
  have spelt : (Outline.node "f" (some "\"") [.node "" none [], .node "g" none []]).SpeltBy source := by
    refine ⟨_, derives, ?_⟩
    rw [chars]
    have letter : ∀ character, isRuleChar character = true → Spells (.word [character]) [character] :=
      fun character inRule => .word (by simp) (by simpa using inRule)
    have rest : Written [.closing, .closing] [')', ')'] := .token .closing (.token .closing .done)
    have fromG : Written [.word ['g'], .opening, .closing, .closing] ['g', '(', ')', ')'] :=
      .token (letter 'g' (by decide)) (.token .opening rest)
    have fromTerminal := Written.token (letter '_' (by decide)) (.token .comma fromG)
    have space : isOutlineBlank ' ' = true := by decide
    have fromOpening := Written.token .opening (.blank space fromTerminal)
    have quoted : Spells (.quoted ['"']) ['"', '\\', '"', '"'] := .quoted (.taken .nil)
    exact .token (letter 'f' (by decide))
      (.token .equals (.token quoted (.blank space fromOpening)))
  obtain ⟨tree, parsed, -, numbered, shows⟩ := (parse_outline_accepts_sentences source).2.1 _ spelt
  have noSentence : ¬∃ outline : Outline, outline.SpeltBy "f(g" := by
    intro sentence
    obtain ⟨other, accepted⟩ := (parse_outline_accepts_sentences "f(g").1.2 sentence
    have refused : parseOutline "f(g" = .error ⟨3, .expectedSeparator⟩ := by rfl
    rw [refused] at accepted
    cases accepted
  obtain ⟨error, refused, inside, -⟩ := (parse_outline_accepts_sentences "f(g").2.2 noSentence
  exact ⟨_, tree, rfl, spelt, parsed, numbered, shows, noSentence, error, refused, inside⟩

end Tree

end SyntaxGraph
