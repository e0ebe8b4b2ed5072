/-!
Lower case of ASCII names. Besides the capital letters of ASCII only the Kelvin sign has a lower
case that is a single ASCII letter.
-/

set_option autoImplicit false

namespace SyntaxGraph.Text

/-- A character whose lower case lies outside ASCII stays as it is. -/
def lowerToAscii (character : Char) : Char :=
  if character = '\u212a' then 'k' else character.toLower

/-- The lower case of a text, exact wherever it is an ASCII text. -/
def lowerName (text : String) : String := text.map lowerToAscii

end SyntaxGraph.Text
