import Mathlib.Data.List.TakeWhile
import SyntaxGraph.Text.TopLevel
import SyntaxGraph.Text.WhiteSpace

/-!
Trimmed texts, and texts that are not split. Trimming takes off white space only, and nothing where
there is none at the ends; a text without separators, quotes and parentheses is its only part.
-/

set_option autoImplicit false

namespace SyntaxGraph.Text

theorem append_trim_start (text : List Char) :
    ∃ before, text = before ++ trimStart text ∧ ∀ character ∈ before, isWhiteSpace character := by
  refine ⟨text.takeWhile isWhiteSpace, List.takeWhile_append_dropWhile.symm, ?_⟩
  intro character taken
  exact List.mem_takeWhile_imp taken

theorem trim_end_append (text : List Char) :
    ∃ after, text = trimEnd text ++ after ∧ ∀ character ∈ after, isWhiteSpace character := by
  obtain ⟨before, split, blank⟩ := append_trim_start text.reverse
  refine ⟨before.reverse, ?_, fun character taken => blank character (List.mem_reverse.1 taken)⟩
  have turned := congrArg List.reverse split
  rwa [List.reverse_reverse, List.reverse_append] at turned

theorem trim_chars_between (text : List Char) :
    ∃ before after, text = before ++ trimChars text ++ after ∧
      (∀ character ∈ before, isWhiteSpace character) ∧
        ∀ character ∈ after, isWhiteSpace character := by
  obtain ⟨before, front, blankBefore⟩ := append_trim_start text
  obtain ⟨after, back, blankAfter⟩ := trim_end_append (trimStart text)
  refine ⟨before, after, ?_, blankBefore, blankAfter⟩
  calc text = before ++ trimStart text := front
    _ = before ++ (trimChars text ++ after) := congrArg (before ++ ·) back
    _ = before ++ trimChars text ++ after := (List.append_assoc _ _ _).symm

theorem trim_start_solid {text : List Char}
    (solid : ∀ character ∈ text, isWhiteSpace character = false) : trimStart text = text := by
  cases text with
  | nil => rfl
  | cons first rest => exact List.dropWhile_cons_of_neg (by simp [solid first])

theorem trim_chars_solid {text : List Char}
    (solid : ∀ character ∈ text, isWhiteSpace character = false) : trimChars text = text := by
  rw [trimChars, trim_start_solid solid, trimEnd]
  have turned : text.reverse.dropWhile isWhiteSpace = text.reverse :=
    trim_start_solid fun character listed => solid character (List.mem_reverse.1 listed)
  rw [turned, List.reverse_reverse]

theorem trim_chars_length_le (text : List Char) :
    (trimChars text).length ≤ text.length := by
  obtain ⟨before, after, split, _⟩ := trim_chars_between text
  have sizes := congrArg List.length split
  simp only [List.length_append] at sizes
  omega

theorem trim_chars_between_solid {first last : Char} {inside : List Char}
    (solidFirst : isWhiteSpace first = false) (solidLast : isWhiteSpace last = false) :
    trimChars (first :: (inside ++ [last])) = first :: (inside ++ [last]) := by
  have front : trimStart (first :: (inside ++ [last])) = first :: (inside ++ [last]) :=
    List.dropWhile_cons_of_neg (by simp [solidFirst])
  have turned : (first :: (inside ++ [last])).reverse = last :: (inside.reverse ++ [first]) := by
    simp
  rw [trimChars, front, trimEnd, turned, List.dropWhile_cons_of_neg (by simp [solidLast]),
    ← turned, List.reverse_reverse]

theorem trim_chars_of_ends {text : List Char} {first last : Char} (starts : text.head? = some first)
    (ends : text.getLast? = some last) (solidFirst : isWhiteSpace first = false)
    (solidLast : isWhiteSpace last = false) : trimChars text = text := by
  obtain ⟨rest, rfl⟩ := List.head?_eq_some_iff.1 starts
  cases rest with
  | nil => exact trim_chars_solid (List.forall_mem_singleton.2 solidFirst)
  | cons second rest =>
      rw [List.getLast?_cons_cons] at ends
      obtain ⟨inside, same⟩ := List.getLast?_eq_some_iff.1 ends
      rw [same]
      exact trim_chars_between_solid solidFirst solidLast

/-- Characters that neither quote nor nest. -/
def IsPlain (character : Char) : Prop :=
  Nesting.isQuote character = false ∧ character ≠ '(' ∧ character ≠ ')'

theorem advance_plain {character : Char} (plain : IsPlain character) :
    Nesting.top.advance character = .ok .top := by
  obtain ⟨unquoted, notOpen, notClose⟩ := plain
  simp [Nesting.top, Nesting.advance, unquoted, notOpen, notClose]

theorem split_plain {separator : Char} {text : List Char}
    (plain : ∀ character ∈ text, IsPlain character ∧ character ≠ separator) :
    splitTopLevel separator text = .ok [text] := by
  unfold splitTopLevel
  induction text with
  | nil => rfl
  | cons character rest induction =>
      obtain ⟨⟨unparted, other⟩, others⟩ := List.forall_mem_cons.1 plain
      have behind := induction others
      rw [splitFrom, if_neg (by simp [Nesting.separates, other]), advance_plain unparted]
      change Bind.bind (splitFrom separator .top rest) _ = _
      rw [behind]
      rfl

end SyntaxGraph.Text
