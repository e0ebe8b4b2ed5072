import SyntaxGraph.Proofs.Regex.Matches
import SyntaxGraph.Proofs.Regex.Reading
import SyntaxGraph.Regex.Compile

/-!
Patterns between anchors. The anchors are put around the text of a pattern and not around its tree,
so that they hold the whole pattern only if it reads as a pattern by itself. Then the tree between
the anchors is its own.
-/

set_option autoImplicit false

namespace SyntaxGraph

namespace Regex

def anchoredTree (tree : RegexTree) : RegexTree :=
  .sequence [.assertion .lineStart, .group [] tree, .assertion .lineEnd]

theorem readChoice_opening (bound : Nat) (input : List Char) :
    readChoice (bound + 2) false [] [] ⟨'^' :: '(' :: '?' :: ':' :: input, false, []⟩ =
      match readChoice bound true [] [] ⟨input, false, []⟩ with
      | none => none
      | some (inner, after) =>
          readChoice bound false [] [.group [] inner, .assertion .lineStart]
            { after with freeSpacing := false } :=
  rfl

theorem readChoice_closing (bound : Nat) (tree : RegexTree) (names : List String) :
    readChoice (bound + 2) false [] [.group [] tree, .assertion .lineStart]
      ⟨['$'], false, names⟩ = some (anchoredTree tree, ⟨[], false, names⟩) :=
  rfl

theorem toList_anchored (pattern : String) :
    (anchored pattern).toList = '^' :: '(' :: '?' :: ':' :: (pattern.toList ++ closing) := by
  simp [anchored, closing]

theorem readTree_eq_some_iff (pattern : String) (tree : RegexTree) :
    readTree pattern = some tree ↔
      ∃ next, readChoice (2 * pattern.toList.length + 2) false [] [] ⟨pattern.toList, false, []⟩ =
        some (tree, next) ∧ tree.depth ≤ RegexTree.maxDepth := by
  simp only [readTree, Option.bind_eq_bind, Option.bind_eq_some_iff, Prod.exists]
  constructor
  · rintro ⟨found, next, read, shallow⟩
    split at shallow
    · cases shallow
      exact ⟨next, read, ‹_›⟩
    · cases shallow
  · rintro ⟨next, read, shallow⟩
    exact ⟨tree, next, read, if_pos shallow⟩

/-- A pattern that reads by itself keeps its tree between the anchors, if it reads there at all. -/
theorem readTree_anchored {pattern : String} {tree wrapped : RegexTree}
    (alone : readTree pattern = some tree) (between : readTree (anchored pattern) = some wrapped) :
    wrapped = anchoredTree tree := by
  obtain ⟨alone_next, alone_read, -⟩ := (readTree_eq_some_iff _ _).mp alone
  obtain ⟨whole_next, whole_read, -⟩ := (readTree_eq_some_iff _ _).mp between
  rw [toList_anchored] at whole_read
  obtain ⟨bound, enough, bound_eq⟩ : ∃ bound, 2 * pattern.toList.length + 2 ≤ bound + 2 ∧
      2 * ('^' :: '(' :: '?' :: ':' :: (pattern.toList ++ closing)).length + 2 = bound + 4 :=
    ⟨2 * pattern.toList.length + 10, by omega, by simp [closing]; omega⟩
  rw [bound_eq, readChoice_opening (bound + 2)] at whole_read
  have extended : Scanner.Extended ⟨pattern.toList, false, []⟩
      ⟨pattern.toList ++ closing, false, []⟩ := ⟨rfl, rfl, .inl rfl⟩
  have closes := closes_readChoice enough false [] [] extended alone_read
  split at whole_read
  · cases whole_read
  · next inner after inner_read =>
    rw [inner_read] at closes
    obtain ⟨rfl, rest⟩ := closes.of_outside
    rw [rest, readChoice_closing] at whole_read
    cases whole_read
    rfl

/-- The group keeps the settings of the pattern to itself, so that the anchors are those of the
text. -/
theorem compileTree_anchoredTree (tree : RegexTree) :
    compileTree .initial (anchoredTree tree) =
      (compileTree .initial tree).map fun compiled => (compiled.1.betweenAnchors, .initial) := by
  have starts : assertionLook .initial .lineStart = .textStart := rfl
  have ends : assertionLook .initial .lineEnd = .textEnd := rfl
  cases compiled : compileTree .initial tree with
  | none => simp [anchoredTree, compileTree, compileSequence, Flags.changeAll, compiled]
  | some compiled =>
    simp [anchoredTree, compileTree, compileSequence, Flags.changeAll, compiled, starts, ends,
      betweenAnchors]

theorem parse?_eq_some_iff (pattern : String) (regex : Regex) :
    parse? pattern = some regex ↔
      ∃ tree next, readTree pattern = some tree ∧ compileTree .initial tree = some (regex, next) ∧
        regex.memory ≤ memoryLimit := by
  simp only [parse?, Option.bind_eq_bind, Option.bind_eq_some_iff, Prod.exists]
  constructor
  · rintro ⟨tree, read, found, next, compiled, small⟩
    split at small
    · cases small
    · cases small
      exact ⟨tree, next, read, compiled, Nat.le_of_not_lt ‹_›⟩
  · rintro ⟨tree, next, read, compiled, small⟩
    exact ⟨tree, read, regex, next, compiled, if_neg (Nat.not_lt.mpr small)⟩

end Regex

end SyntaxGraph
