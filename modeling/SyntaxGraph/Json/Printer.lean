import SyntaxGraph.Json.Value

/-!
Writing JSON text, either without any white space or indented by two spaces a level. Quotes,
backslashes and characters below the space are escaped, everything else is written as it is.
-/

set_option autoImplicit false

namespace SyntaxGraph

namespace Json

def hexChar (digit : Nat) : Char :=
  Char.ofNat (if digit < 10 then '0'.toNat + digit else 'a'.toNat + (digit - 10))

def escapeChar (character : Char) : List Char :=
  if character = '"' then ['\\', '"']
  else if character = '\\' then ['\\', '\\']
  else if character = '\x08' then ['\\', 'b']
  else if character = '\x0c' then ['\\', 'f']
  else if character = '\n' then ['\\', 'n']
  else if character = '\r' then ['\\', 'r']
  else if character = '\t' then ['\\', 't']
  else if character.val < 0x20 then
    ['\\', 'u', '0', '0', hexChar (character.toNat / 16), hexChar (character.toNat % 16)]
  else [character]

def quote (text : String) : String :=
  String.ofList ('"' :: (text.toList.flatMap escapeChar ++ ['"']))

mutual

/-- Appends a value without white space; a broken string is written as an empty one. -/
def appendCompact (output : String) : Json → String
  | null => output ++ "null"
  | bool value => output ++ if value then "true" else "false"
  | number literal => output ++ literal
  | string text => output ++ quote text
  | brokenString => output ++ quote ""
  | array items => appendItems (output ++ "[") true items ++ "]"
  | object members => appendMembers (output ++ "\x7b") true members ++ "\x7d"

def appendItems (output : String) (first : Bool) : List Json → String
  | [] => output
  | item :: rest =>
      appendItems (appendCompact (if first then output else output ++ ",") item) false rest

def appendMembers (output : String) (first : Bool) : List (String × Json) → String
  | [] => output
  | (name, value) :: rest =>
      let start := (if first then output else output ++ ",") ++ quote name ++ ":"
      appendMembers (appendCompact start value) false rest

end

def compact (value : Json) : String := appendCompact "" value

def newline (level : Nat) : String := String.ofList ('\n' :: List.replicate (2 * level) ' ')

mutual

/-- Appends a value with every item and member on a line of its own. The level is that of the
line which the value starts on. -/
def appendIndented (level : Nat) (output : String) : Json → String
  | array (item :: rest) =>
      appendIndentedItems (level + 1) (output ++ "[") true (item :: rest) ++ newline level ++ "]"
  | object (member :: rest) =>
      appendIndentedMembers (level + 1) (output ++ "\x7b") true (member :: rest) ++
        newline level ++ "\x7d"
  | value => appendCompact output value

def appendIndentedItems (level : Nat) (output : String) (first : Bool) : List Json → String
  | [] => output
  | item :: rest =>
      let start := (if first then output else output ++ ",") ++ newline level
      appendIndentedItems level (appendIndented level start item) false rest

def appendIndentedMembers (level : Nat) (output : String) (first : Bool) :
    List (String × Json) → String
  | [] => output
  | (name, value) :: rest =>
      let start := (if first then output else output ++ ",") ++ newline level ++ quote name ++ ": "
      appendIndentedMembers level (appendIndented level start value) false rest

end

def pretty (value : Json) : String := appendIndented 0 "" value

end Json

end SyntaxGraph
