import SyntaxGraph.Text.Alphanumeric
import SyntaxGraph.Text.WhiteSpace

/-!
No character is both white space and alphanumeric. The table of categories is kept as texts, which
are read once here, up to the last white space.
-/

set_option autoImplicit false

namespace SyntaxGraph.Text

def whiteSpaceCodes : List Nat :=
  [0x09, 0x0A, 0x0B, 0x0C, 0x0D, 0x20, 0x85, 0xA0, 0x1680, 0x2000, 0x2001, 0x2002, 0x2003, 0x2004,
   0x2005, 0x2006, 0x2007, 0x2008, 0x2009, 0x200A, 0x2028, 0x2029, 0x202F, 0x205F, 0x3000]

theorem mem_white_space_codes {character : Char} (blank : isWhiteSpace character = true) :
    character.toNat ∈ whiteSpaceCodes := by
  simp only [isWhiteSpace, Bool.or_eq_true, Bool.and_eq_true, decide_eq_true_eq,
    UInt32.le_iff_toNat_le, ← UInt32.toNat_inj] at blank
  simp only [whiteSpaceCodes, List.mem_cons, List.not_mem_nil, or_false]
  simp only [show character.val.toNat = character.toNat from rfl, UInt32.reduceToNat] at blank
  omega

theorem runs_of_line {line : List Char} {later : List String} {runs : List (Category × Nat)}
    (behind : later.flatMap (fun line => readRuns line.length line.toList) = runs) :
    (String.ofList line :: later).flatMap (fun line => readRuns line.length line.toList) =
      readRuns line.length line ++ runs := by
  rw [List.flatMap_cons, String.toList_ofList, String.length_ofList, behind]

theorem categories_of_white_space :
    ∃ table, categoryTable = table ∧ whiteSpaceCodes.all (fun code =>
      (categoryAt table code).major ≠ 'L' && (categoryAt table code).major ≠ 'N') = true := by
  unfold categoryTable categoryRuns
  apply Exists.intro
  apply And.intro
  · -- Every line of the table as a list of characters, which is what the kernel computes with.
    repeat apply runs_of_line
    exact List.flatMap_nil
  · decide +kernel

theorem major_of_white_space {character : Char} (blank : isWhiteSpace character = true) :
    (category character).major ≠ 'L' ∧ (category character).major ≠ 'N' := by
  obtain ⟨table, same, checked⟩ := categories_of_white_space
  have here := List.all_eq_true.1 checked character.toNat (mem_white_space_codes blank)
  rw [category, same]
  simpa using here

theorem not_alphanumeric_of_white_space {character : Char} (blank : isWhiteSpace character = true) :
    isAlphanumeric character = false := by
  obtain ⟨noLetter, noNumber⟩ := major_of_white_space blank
  have listed := mem_white_space_codes blank
  have unlisted : inRanges otherAlphabetic character = false := by
    have outside : whiteSpaceCodes.all (fun code =>
        !otherAlphabetic.any fun range => range.1 ≤ code && code ≤ range.2) = true := by
      decide +kernel
    simpa [inRanges] using List.all_eq_true.1 outside character.toNat listed
  have noAscii : character.val < 128 → character.isAlpha = false ∧ character.isDigit = false := by
    intro ascii
    have low : character.toNat < 128 := ascii
    have plain : whiteSpaceCodes.all (fun code =>
        128 ≤ code || !(Char.ofNat code).isAlpha && !(Char.ofNat code).isDigit) = true := by
      decide +kernel
    have here := List.all_eq_true.1 plain character.toNat listed
    simpa [Nat.not_le.2 low] using here
  have notLetterNumber : category character ≠ ⟨'N', 'l'⟩ := by
    intro same
    exact noNumber (by rw [same])
  unfold isAlphanumeric isAlphabetic isNumeric
  split
  · rename_i ascii
    simp [noAscii ascii]
  · simp [noLetter, noNumber, notLetterNumber, unlisted]

end SyntaxGraph.Text
