import SyntaxGraph.Json.Printer

/-!
Writing TOML: keys with values on lines of their own, and texts between double quotes.
-/

set_option autoImplicit false

namespace SyntaxGraph.Toml

/-- Besides the characters that JSON escapes, the delete character has to be escaped. -/
def escapeChar (character : Char) : List Char :=
  if character = '\x7f' then ['\\', 'u', '0', '0', '7', 'f'] else Json.escapeChar character

def quote (text : String) : String :=
  String.ofList ('"' :: (text.toList.flatMap escapeChar ++ ['"']))

def line (key value : String) : String := key ++ " = " ++ value ++ "\n"

end SyntaxGraph.Toml
