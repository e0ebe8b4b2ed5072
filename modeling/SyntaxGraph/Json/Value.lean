/-!
JSON values as they are written: members keep their order and their duplicates, numbers keep
their literal. Whether a duplicate or a number is acceptable is for the reader of the value.
-/

set_option autoImplicit false

namespace SyntaxGraph

inductive Json where
  | null
  | bool (value : Bool)
  | number (literal : String)
  | string (text : String)
  /-- A string whose escapes denote no text: half of a surrogate pair stands alone. It may be
  skipped and cannot be read. -/
  | brokenString
  | array (items : List Json)
  | object (members : List (String × Json))
deriving Repr, Inhabited

namespace Json

def digitsValue (digits : List Char) : Nat :=
  digits.foldl (fun value digit => value * 10 + (digit.toNat - '0'.toNat)) 0

def maxNatural : Nat := UInt64.size - 1

def natural? : Json → Option Nat
  | number literal =>
      let value := digitsValue literal.toList
      if literal.toList.all Char.isDigit && value ≤ maxNatural then some value else none
  | _ => none

def integer? : Json → Option Int
  | number literal =>
      match literal.toList with
      | '-' :: digits => if digits.all Char.isDigit then some (-(digitsValue digits : Int)) else none
      | digits => if digits.all Char.isDigit then some (digitsValue digits : Int) else none
  | _ => none

def text? : Json → Option String
  | string text => some text
  | _ => none

def bool? : Json → Option Bool
  | bool value => some value
  | _ => none

def items? : Json → Option (List Json)
  | array items => some items
  | _ => none

def members? : Json → Option (List (String × Json))
  | object members => some members
  | _ => none

def member? (value : Json) (name : String) : Option Json :=
  (value.members?.bind fun members => members.find? fun entry => entry.1 = name).map (·.2)

mutual

def depth : Json → Nat
  | array items => itemsDepth items + 1
  | object members => membersDepth members + 1
  | _ => 0

def itemsDepth : List Json → Nat
  | [] => 0
  | item :: rest => max (depth item) (itemsDepth rest)

def membersDepth : List (String × Json) → Nat
  | [] => 0
  | (_, value) :: rest => max (depth value) (membersDepth rest)

end

def natural (value : Nat) : Json := number (toString value)

def ofOption (value : Option Json) : Json := value.getD null

def strings (texts : List String) : Json := array (texts.map string)

def naturals (values : List Nat) : Json := array (values.map natural)

end Json

end SyntaxGraph
