/-!
The white space of the Unicode property White_Space, and texts trimmed of it at both ends.
-/

set_option autoImplicit false

namespace SyntaxGraph.Text

/-- The 25 characters of the property: ten ranges, of which six are single characters. -/
def isWhiteSpace (character : Char) : Bool :=
  let code := character.val
  (9 ≤ code && code ≤ 13) || code = 0x20 || code = 0x85 || code = 0xA0 || code = 0x1680 ||
  (0x2000 ≤ code && code ≤ 0x200A) || (0x2028 ≤ code && code ≤ 0x2029) || code = 0x202F ||
  code = 0x205F || code = 0x3000

def trimStart (text : List Char) : List Char := text.dropWhile isWhiteSpace

def trimEnd (text : List Char) : List Char := (text.reverse.dropWhile isWhiteSpace).reverse

def trimChars (text : List Char) : List Char := trimEnd (trimStart text)

def trim (text : String) : String := String.ofList (trimChars text.toList)

def isBlank (text : String) : Bool := text.toList.all isWhiteSpace

end SyntaxGraph.Text
