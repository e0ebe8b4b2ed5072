import SyntaxGraph.Proofs.Outline.Acceptance
import SyntaxGraph.Proofs.Outline.RoundTrip
import SyntaxGraph.Proofs.Text.Slices

/-!
Where the texts of an outline stand. A node starts where its parent's text would have to start for the
children's texts to be joined in it; so a text that is left out holds the texts of the children between
the bytes of their spans, and if all inner texts are left out, the whole text holds every other one.
-/

set_option autoImplicit false

namespace SyntaxGraph

-- Texts joined by spaces

theorem first_stands_in_join (first : String) (rest : List String) :
    StandsBetween (" ".intercalate (first :: rest)) 0 first.utf8ByteSize first := by
  cases rest with
  | nil =>
      rw [String.intercalate_singleton]
      exact stands_between_whole first
  | cons second rest =>
      refine ⟨"", " " ++ " ".intercalate (second :: rest), ?_, rfl, Nat.zero_add _⟩
      rw [String.intercalate_cons_cons, String.empty_append, String.append_assoc]

theorem StandsBetween.in_join {text : String} {rest : List String} {startByte endByte : Nat}
    (stands : StandsBetween (" ".intercalate rest) startByte endByte text) (nonempty : rest ≠ [])
    (first : String) :
    StandsBetween (" ".intercalate (first :: rest)) (first.utf8ByteSize + 1 + startByte)
      (first.utf8ByteSize + 1 + endByte) text := by
  have shifted := stands.surrounded (first ++ " ") ""
  have width : (first ++ " ").utf8ByteSize = first.utf8ByteSize + 1 := String.utf8ByteSize_append
  rwa [String.append_empty, width, ← String.intercalate_cons_of_ne_nil nonempty] at shifted

namespace Tree

open Outline

/-- The node was added for this part of the outline: the root for the whole outline, and the children of
a node for the parts below its own, in order. -/
inductive WrittenAs (tree : Tree) (outline : Outline) : NodeId → Outline → Prop
  | whole {root : NodeId} (rooted : tree.root = some root) : WrittenAs tree outline root outline
  | part {id child : NodeId} {part inner : Outline} {index : Nat}
      (above : WrittenAs tree outline id part) (listed : (tree.children id)[index]? = some child)
      (written : part.children[index]? = some inner) : WrittenAs tree outline child inner

variable {tree : Tree}

theorem length_sibling_ids (id : NodeId) (siblings : List Outline) :
    (siblingIds id siblings).length = siblings.length := by
  induction siblings generalizing id with
  | nil => rfl
  | cons outline rest induction => rw [siblingIds, List.length_cons, induction, List.length_cons]

theorem HoldsFrom.top {parent : Option NodeId} {start : Nat} {id : NodeId} {part : Outline}
    (holds : tree.HoldsFrom id (layout parent start id part)) :
    tree.node? id = some ⟨id, part.rule, part.fullText,
        ⟨start, start + part.fullText.utf8ByteSize, 1, start⟩, parent,
        siblingIds (id + 1) part.children⟩ ∧
      tree.HoldsFrom (id + 1) (layoutAll id start (id + 1) part.children) := by
  obtain ⟨rule, text, children⟩ := part
  rw [layout] at holds
  exact ⟨holds.node, holds.tail⟩

theorem HoldsFrom.children_eq {parent : Option NodeId} {start : Nat} {id : NodeId} {part : Outline}
    (holds : tree.HoldsFrom id (layout parent start id part)) :
    tree.children id = siblingIds (id + 1) part.children := by
  rw [Tree.children, holds.top.1]
  rfl

theorem holds_sibling {parent start id index : Nat} {siblings : List Outline} {child : NodeId}
    {part : Outline} (holds : tree.HoldsFrom id (layoutAll parent start id siblings))
    (listed : (siblingIds id siblings)[index]? = some child)
    (written : siblings[index]? = some part) :
    ∃ offset, tree.HoldsFrom child (layout (some parent) (start + offset) child part) ∧
      StandsBetween (" ".intercalate (siblings.map fullText)) offset
        (offset + part.fullText.utf8ByteSize) part.fullText := by
  induction siblings generalizing start id index with
  | nil => simp at written
  | cons first rest induction =>
      rw [layoutAll] at holds
      cases index with
      | zero =>
          have same : id = child := by simpa [siblingIds] using listed
          have samePart : first = part := by simpa using written
          subst same samePart
          refine ⟨0, holds.left, ?_⟩
          rw [Nat.zero_add]
          exact first_stands_in_join first.fullText (rest.map fullText)
      | succ index =>
          have behind := holds.right
          rw [length_layout] at behind
          have writtenLater : rest[index]? = some part := by simpa using written
          obtain ⟨offset, placed, stands⟩ := induction behind (by simpa [siblingIds] using listed)
            writtenLater
          have nonempty : rest.map fullText ≠ [] := by
            intro none_later
            rw [List.map_eq_nil_iff.1 none_later] at writtenLater
            cases writtenLater
          refine ⟨first.fullText.utf8ByteSize + 1 + offset, ?_, ?_⟩
          · rw [← Nat.add_assoc, ← Nat.add_assoc]
            exact placed
          · rw [Nat.add_assoc _ offset]
            exact stands.in_join nonempty first.fullText

def InnerTextsLeftOut (tree : Tree) (outline : Outline) : Prop :=
  ∀ id rule text children, tree.WrittenAs outline id (.node rule text children) → children ≠ [] →
    text = none

theorem full_text_of_left_out (rule : String) {children : List Outline} (inner : children ≠ []) :
    (Outline.node rule none children).fullText = " ".intercalate (children.map fullText) := by
  cases children with
  | nil => exact absurd rfl inner
  | cons first rest => exact fullText.eq_def _

/-- Every node stands where its part of the outline is laid out, and if no inner text is written, its
text stands there in the whole text. -/
theorem WrittenAs.placed {outline part : Outline} {id : NodeId}
    (holds : tree.HoldsFrom 0 (layout none 0 0 outline)) (rooted : tree.root = some 0)
    (written : tree.WrittenAs outline id part) :
    ∃ parent start, tree.HoldsFrom id (layout parent start id part) ∧
      (tree.InnerTextsLeftOut outline →
        StandsBetween outline.fullText start (start + part.fullText.utf8ByteSize) part.fullText) := by
  induction written with
  | whole same =>
      rw [rooted] at same
      cases same
      refine ⟨none, 0, holds, fun _ => ?_⟩
      rw [Nat.zero_add]
      exact stands_between_whole outline.fullText
  | @part id child part inner index above listed written induction =>
      obtain ⟨parent, start, placed, stands⟩ := induction
      rw [placed.children_eq] at listed
      obtain ⟨offset, innerPlaced, innerStands⟩ := holds_sibling placed.top.2 listed written
      refine ⟨some id, start + offset, innerPlaced, fun leftOut => ?_⟩
      obtain ⟨rule, text, children⟩ := part
      have nonempty : children ≠ [] := by
        intro childless
        rw [Outline.children, childless] at written
        cases written
      have unwritten := leftOut id rule text children above nonempty
      subst unwritten
      have outer := stands leftOut
      rw [full_text_of_left_out rule nonempty] at outer
      rw [Nat.add_assoc]
      exact outer.trans innerStands

theorem of_outline_written (outline : Outline) {id : NodeId}
    (inside : id < (ofOutline outline).size) :
    ∃ part, (ofOutline outline).WrittenAs outline id part := by
  have holds := of_outline_holds outline
  have segment := (block_of_outline none 0 0 outline holds).segment
  rw [Nat.zero_add, ← size_of_outline] at segment
  induction id using Nat.strongRecOn with
  | ind id induction =>
      by_cases top : id = 0
      · rw [top]
        exact ⟨outline, .whole rfl⟩
      · obtain ⟨parent, listed⟩ := segment.hanging id (Nat.pos_of_ne_zero top) inside
        have parentKnown := of_decide_eq_true (known_of_listing listed)
        obtain ⟨before, _, _⟩ := segment.listed parent (Nat.zero_le _) parentKnown id listed
        obtain ⟨part, written⟩ := induction parent before parentKnown
        obtain ⟨_, _, placed, _⟩ := written.placed holds rfl
        obtain ⟨index, found⟩ := List.mem_iff_getElem?.1 listed
        have short : index < part.children.length := by
          obtain ⟨within, _⟩ := List.getElem?_eq_some_iff.1 found
          rwa [placed.children_eq, length_sibling_ids] at within
        exact ⟨_, .part written found (List.getElem?_eq_getElem short)⟩

/-- Every node of a tree that is read was added for a part of its outline. Its span has the width of its
text, on one line. The children of a node whose text is not written have theirs in it, between the bytes
that their spans have in its span. So if no inner text is written, the text of the root holds every
other one between the bytes of its span. -/
theorem parsed_spans_hold_texts {source : String} {tree : Tree}
    (parsed : parseOutline source = .ok tree) :
    ∃ outline : Outline, outline.SpeltBy source ∧
      (∀ id node, tree.node? id = some node →
        (∃ part, tree.WrittenAs outline id part) ∧
          node.span.endByte = node.span.startByte + node.text.utf8ByteSize ∧
          node.span.line = 1 ∧ node.span.column = node.span.startByte) ∧
      (∀ id node rule children child inner, tree.WrittenAs outline id (.node rule none children) →
        tree.node? id = some node → child ∈ node.children → tree.node? child = some inner →
          node.span.startByte ≤ inner.span.startByte ∧
            StandsBetween node.text (inner.span.startByte - node.span.startByte)
              (inner.span.endByte - node.span.startByte) inner.text) ∧
      (tree.InnerTextsLeftOut outline →
        ∃ root top, tree.root = some root ∧ tree.node? root = some top ∧
          ∀ id node, tree.node? id = some node →
            StandsBetween top.text node.span.startByte node.span.endByte node.text) := by
  obtain ⟨outline, read, rfl⟩ := grown_of_parse_outline parsed
  have holds := of_outline_holds outline
  refine ⟨outline, parse_iff_spelt.1 read, ?_, ?_, ?_⟩
  · intro id node found
    obtain ⟨part, written⟩ := of_outline_written outline (of_decide_eq_true (known_of_found found))
    obtain ⟨_, _, placed, _⟩ := written.placed holds rfl
    cases found.symm.trans placed.top.1
    exact ⟨⟨part, written⟩, rfl, rfl, rfl⟩
  · intro id node rule children child inner written found listed innerFound
    obtain ⟨_, start, placed, _⟩ := written.placed holds rfl
    cases found.symm.trans placed.top.1
    obtain ⟨index, listedAt⟩ := List.mem_iff_getElem?.1 listed
    have short : index < children.length := by
      obtain ⟨within, _⟩ := List.getElem?_eq_some_iff.1 listedAt
      rwa [length_sibling_ids] at within
    obtain ⟨offset, innerPlaced, stands⟩ :=
      holds_sibling placed.top.2 listedAt (List.getElem?_eq_getElem short)
    cases innerFound.symm.trans innerPlaced.top.1
    have nonempty : children ≠ [] := List.ne_nil_of_length_pos (Nat.zero_lt_of_lt short)
    refine ⟨Nat.le_add_right _ _, ?_⟩
    have inText : StandsBetween (Outline.node rule none children).fullText offset
        (offset + children[index].fullText.utf8ByteSize) children[index].fullText := by
      rw [full_text_of_left_out rule nonempty]
      exact stands
    simpa only [Nat.add_assoc, Nat.add_sub_cancel_left] using inText
  · intro leftOut
    refine ⟨0, _, rfl, holds.top.1, fun id node found => ?_⟩
    obtain ⟨part, written⟩ := of_outline_written outline (of_decide_eq_true (known_of_found found))
    obtain ⟨_, _, placed, stands⟩ := written.placed holds rfl
    cases found.symm.trans placed.top.1
    exact stands leftOut

/-- A call whose text and whose last argument's text are left out; the other texts are two bytes and no
byte long. -/
def nestedCall : Outline :=
  .node "f" none [.node "a" (some "é") [], .node "g" none [.node "b" (some "") [], .node "c" none []]]

theorem nested_call_render : nestedCall.render = "f(a=\"é\", g(b=\"\", c))" := by
  simp [nestedCall, render, chars, ruleChars, escapeText, List.intercalate]

theorem nested_call_writable : nestedCall.Writable := by
  have leaf : ∀ rule text, IsRule rule → (Outline.node rule text []).Writable :=
    fun rule text isRule => .node isRule (by simp)
  refine .node (is_rule_of_all (by decide) (by decide)) ?_
  rintro child (_ | ⟨_, _ | ⟨_, ⟨⟩⟩⟩)
  · exact leaf "a" _ (is_rule_of_all (by decide) (by decide))
  · refine .node (is_rule_of_all (by decide) (by decide)) ?_
    rintro child (_ | ⟨_, _ | ⟨_, ⟨⟩⟩⟩)
    · exact leaf "b" _ (is_rule_of_all (by decide) (by decide))
    · exact leaf "c" _ (is_rule_of_all (by decide) (by decide))

theorem nested_call_layout : layout none 0 0 nestedCall =
    [⟨0, "f", "é  c", ⟨0, 5, 1, 0⟩, none, [1, 2]⟩, ⟨1, "a", "é", ⟨0, 2, 1, 0⟩, some 0, []⟩,
      ⟨2, "g", " c", ⟨3, 5, 1, 3⟩, some 0, [3, 4]⟩, ⟨3, "b", "", ⟨3, 3, 1, 3⟩, some 2, []⟩,
      ⟨4, "c", "c", ⟨4, 5, 1, 4⟩, some 2, []⟩] := by
  have twoBytes : "é".utf8ByteSize = 2 := by decide
  have twoInner : " c".utf8ByteSize = 2 := by decide
  have fiveWhole : "é  c".utf8ByteSize = 5 := by decide
  have oneByte : "c".utf8ByteSize = 1 := by decide
  simp [nestedCall, layout, layoutAll, siblingIds, fullText, Outline.size, *]

theorem nested_call_left_out : tree.InnerTextsLeftOut nestedCall := by
  intro id rule text children written inner
  have among : ∀ {id part}, tree.WrittenAs nestedCall id part → part = nestedCall ∨
      part ∈ nestedCall.children ∨ part ∈ [.node "b" (some "") [], .node "c" none []] := by
    intro id part written
    induction written with
    | whole _ => exact .inl rfl
    | part _ _ written induction =>
        have below := List.mem_of_getElem? written
        obtain rfl | inCall | inInnerCall := induction
        · exact .inr (.inl below)
        · simp only [nestedCall, Outline.children, List.mem_cons, List.not_mem_nil, or_false] at inCall
          obtain rfl | rfl := inCall
          · cases below
          · exact .inr (.inr below)
        · simp only [List.mem_cons, List.not_mem_nil, or_false] at inInnerCall
          obtain rfl | rfl := inInnerCall <;> cases below
  have here := among written
  simp only [nestedCall, Outline.children, List.mem_cons, List.not_mem_nil, or_false,
    Outline.node.injEq] at here
  obtain here | (here | here) | here | here := here
  · exact here.2.1
  · exact absurd here.2.2 inner
  · exact here.2.1
  · exact absurd here.2.2 inner
  · exact absurd here.2.2 inner

theorem nested_call_spans :
    ∃ tree call child, parseOutline "f(a=\"é\", g(b=\"\", c))" = .ok tree ∧
      tree.node? 2 = some call ∧ call.text = " c" ∧ call.span = ⟨3, 5, 1, 3⟩ ∧
      tree.node? 4 = some child ∧ child.text = "c" ∧ child.span = ⟨4, 5, 1, 4⟩ ∧
      StandsBetween " c" 1 2 "c" ∧ StandsBetween "é  c" 4 5 "c" := by
  have parsed := parse_outline_render nested_call_writable
  rw [nested_call_render] at parsed
  obtain ⟨outline, spelt, _, inText, inWhole⟩ := parsed_spans_hold_texts parsed
  have same : outline = nestedCall := by
    have again := parse_iff_spelt.2 spelt
    rw [← nested_call_render, nested_call_writable.parse_render] at again
    exact (Except.ok.inj again).symm
  subst same
  have holds := of_outline_holds nestedCall
  rw [nested_call_layout] at holds
  have rooted : (ofOutline nestedCall).root = some 0 := rfl
  have callFound := holds.tail.tail.node
  have childFound := holds.tail.tail.tail.tail.node
  refine ⟨_, _, _, parsed, callFound, rfl, rfl, childFound, rfl, rfl, ?_, ?_⟩
  · have listed : ((ofOutline nestedCall).children 0)[1]? = some 2 := by
      rw [children, holds.node]
      rfl
    have second : nestedCall.children[1]? =
        some (.node "g" none [.node "b" (some "") [], .node "c" none []]) := rfl
    have written := WrittenAs.part (.whole rooted) listed second
    exact (inText 2 _ _ _ 4 _ written callFound (by decide) childFound).2
  · obtain ⟨_, _, same, topFound, inTop⟩ := inWhole nested_call_left_out
    cases rooted.symm.trans same
    cases topFound.symm.trans holds.node
    exact inTop 4 _ childFound

end Tree

end SyntaxGraph
