import SyntaxGraph.Text.Alphanumeric
import SyntaxGraph.Text.CaseFolding
import SyntaxGraph.Text.WhiteSpace

/-!
Sets of characters as regular expressions describe them, with a membership test.
-/

set_option autoImplicit false

namespace SyntaxGraph

inductive CharProperty where
  | any
  | assigned
  | ascii
  | alphabetic
  | whiteSpace
  /-- Letters, marks, decimal digits, connectors and joiners. -/
  | word
  | decimalDigit
  | casedLetter
  | major (letter : Char)
  | category (category : Text.Category)
deriving DecidableEq, Repr

namespace CharProperty

def holds (property : CharProperty) (character : Char) : Bool :=
  match property with
  | .any => true
  | .assigned => Text.category character ≠ ⟨'C', 'n'⟩
  | .ascii => character.val < 128
  | .alphabetic => Text.isAlphabetic character
  | .whiteSpace => Text.isWhiteSpace character
  | .word =>
      if character.val < 128 then character.isAlphanum || character = '_'
      else
        let category := Text.category character
        Text.isAlphabetic character || category.major = 'M' || category = ⟨'N', 'd'⟩ ||
          category = ⟨'P', 'c'⟩ || character = '\u200c' || character = '\u200d'
  | .decimalDigit =>
      if character.val < 128 then character.isDigit else Text.category character = ⟨'N', 'd'⟩
  | .casedLetter =>
      let category := Text.category character
      category = ⟨'L', 'u'⟩ || category = ⟨'L', 'l'⟩ || category = ⟨'L', 't'⟩
  | .major letter => (Text.category character).major = letter
  | .category wanted => Text.category character = wanted

end CharProperty

inductive CharSet where
  | empty
  /-- Code points from the first to the last. -/
  | range (first last : Nat)
  | property (property : CharProperty)
  | union (left right : CharSet)
  | intersection (left right : CharSet)
  | complement (set : CharSet)
  /-- What differs from a member in case only. -/
  | folded (set : CharSet)
  /-- What differs from a member in the case of an ASCII letter only. -/
  | foldedAscii (set : CharSet)
deriving DecidableEq, Repr

namespace CharSet

def swapAsciiCase (character : Char) : Char :=
  if character.isLower then character.toUpper else character.toLower

def contains : CharSet → Char → Bool
  | .empty, _ => false
  | .range first last, character => first ≤ character.toNat && character.toNat ≤ last
  | .property named, character => named.holds character
  | .union left right, character => left.contains character || right.contains character
  | .intersection left right, character => left.contains character && right.contains character
  | .complement set, character => !set.contains character
  | .folded set, character =>
      (Text.foldClass character.toNat).any fun code => set.contains (Char.ofNat code)
  | .foldedAscii set, character =>
      set.contains character || set.contains (swapAsciiCase character)

def single (character : Char) : CharSet := .range character.toNat character.toNat

def ofRanges (ranges : List (Char × Char)) : CharSet :=
  ranges.foldl (fun set (first, last) => .union set (.range first.toNat last.toNat)) .empty

def difference (left right : CharSet) : CharSet := .intersection left (.complement right)

def symmetricDifference (left right : CharSet) : CharSet :=
  .union (difference left right) (difference right left)

def exceedsAscii (set : CharSet) : Bool :=
  (List.range 128).any fun offset => set.contains (Char.ofNat (128 + offset))

end CharSet

end SyntaxGraph
