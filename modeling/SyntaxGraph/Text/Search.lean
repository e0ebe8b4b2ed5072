/-!
Searching texts for a part: whether and where it occurs first, and the pieces between its
occurrences, which are found from the left and do not overlap.
-/

set_option autoImplicit false

namespace SyntaxGraph.Text

/-- Every text contains the empty one. -/
def containsPart (part : List Char) : List Char → Bool
  | [] => part.isEmpty
  | character :: rest => part.isPrefixOf (character :: rest) || containsPart part rest

def beforeFirst (marker : List Char) : List Char → List Char
  | [] => []
  | character :: rest =>
      if marker.isPrefixOf (character :: rest) then [] else character :: beforeFirst marker rest

/-- The pieces between occurrences of a separator, given how many characters of an occurrence are
still to be passed over. -/
def piecesFrom (separator : List Char) : Nat → List Char → List (List Char)
  | _, [] => [[]]
  | passing + 1, _ :: rest => piecesFrom separator passing rest
  | 0, character :: rest =>
      if separator.isPrefixOf (character :: rest) then
        [] :: piecesFrom separator (separator.length - 1) rest
      else
        match piecesFrom separator 0 rest with
        | [] => [[character]]
        | first :: others => (character :: first) :: others

def piecesBetween (separator text : List Char) : List (List Char) := piecesFrom separator 0 text

end SyntaxGraph.Text
