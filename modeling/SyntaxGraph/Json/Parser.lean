import SyntaxGraph.Json.Value

/-!
Reading JSON text, strictly: no comments, no trailing commas, no leading zeros, no characters
below the space inside strings, nothing behind the value.
-/

set_option autoImplicit false

namespace SyntaxGraph

namespace Json

def isBlankChar (character : Char) : Bool :=
  character = ' ' || character = '\t' || character = '\n' || character = '\r'

def skipBlanks (input : List Char) : List Char := input.dropWhile isBlankChar

def hexDigit? (character : Char) : Option Nat :=
  if '0' ≤ character && character ≤ '9' then some (character.toNat - '0'.toNat)
  else if 'a' ≤ character && character ≤ 'f' then some (character.toNat - 'a'.toNat + 10)
  else if 'A' ≤ character && character ≤ 'F' then some (character.toNat - 'A'.toNat + 10)
  else none

def readUnit : List Char → Option (Nat × List Char)
  | a :: b :: c :: d :: rest => do
      return ((((← hexDigit? a) * 16 + (← hexDigit? b)) * 16 + (← hexDigit? c)) * 16
        + (← hexDigit? d), rest)
  | _ => none

def isHighHalf (unit : Nat) : Bool := 0xD800 ≤ unit && unit < 0xDC00

def isLowHalf (unit : Nat) : Bool := 0xDC00 ≤ unit && unit < 0xE000

/-- The character of an escape behind its backslash; a lone half of a pair has none. -/
def readEscape : List Char → Option (Option Char × List Char)
  | '"' :: rest => some (some '"', rest)
  | '\\' :: rest => some (some '\\', rest)
  | '/' :: rest => some (some '/', rest)
  | 'b' :: rest => some (some '\x08', rest)
  | 'f' :: rest => some (some '\x0c', rest)
  | 'n' :: rest => some (some '\n', rest)
  | 'r' :: rest => some (some '\r', rest)
  | 't' :: rest => some (some '\t', rest)
  | 'u' :: rest => do
      let (unit, afterUnit) ← readUnit rest
      if isLowHalf unit then return (none, afterUnit)
      if !isHighHalf unit then return (some (Char.ofNat unit), afterUnit)
      match afterUnit with
      | '\\' :: 'u' :: second =>
          let (low, afterLow) ← readUnit second
          if isLowHalf low then
            return (some (Char.ofNat (0x10000 + (unit - 0xD800) * 0x400 + (low - 0xDC00))), afterLow)
          else return (none, afterUnit)
      | _ => return (none, afterUnit)
  | _ => none

/-- Reads up to the closing quote; the characters read so far come last first, and are lost for
good once an escape denotes no character. The bound is the length of the input. -/
def readString : Nat → Option (List Char) → List Char → Option (Option String × List Char)
  | 0, _, _ => none
  | _ + 1, _, [] => none
  | _ + 1, reversed, '"' :: rest => some (reversed.map fun chars => String.ofList chars.reverse, rest)
  | bound + 1, reversed, '\\' :: rest =>
      match readEscape rest with
      | none => none
      | some (character, rest) =>
          readString bound (do return (← character) :: (← reversed)) rest
  | bound + 1, reversed, character :: rest =>
      if character.val < 0x20 then none
      else readString bound (reversed.map (character :: ·)) rest

def readDigits (input : List Char) : Option (List Char × List Char) :=
  let digits := input.takeWhile Char.isDigit
  if digits.isEmpty then none else some (digits, input.dropWhile Char.isDigit)

def readWhole : List Char → Option (List Char × List Char)
  | '0' :: rest => if (rest.head?.map Char.isDigit).getD false then none else some (['0'], rest)
  | input => readDigits input

def readFraction : List Char → Option (List Char × List Char)
  | '.' :: rest => (readDigits rest).map fun (digits, rest) => ('.' :: digits, rest)
  | input => some ([], input)

def readExponent : List Char → Option (List Char × List Char)
  | mark :: rest =>
      if mark = 'e' || mark = 'E' then
        match rest with
        | sign :: digits =>
            if sign = '+' || sign = '-' then
              (readDigits digits).map fun (digits, rest) => (mark :: sign :: digits, rest)
            else (readDigits rest).map fun (digits, rest) => (mark :: digits, rest)
        | [] => none
      else some ([], mark :: rest)
  | [] => some ([], [])

def readNumber (input : List Char) : Option (Json × List Char) := do
  let (sign, unsigned) := match input with
    | '-' :: rest => (['-'], rest)
    | _ => ([], input)
  let (whole, afterWhole) ← readWhole unsigned
  let (fraction, afterFraction) ← readFraction afterWhole
  let (exponent, rest) ← readExponent afterFraction
  return (number (String.ofList (sign ++ whole ++ fraction ++ exponent)), rest)

mutual

/-- The bound limits nested and repeated calls; twice the input's length is enough. -/
def readValue : Nat → List Char → Option (Json × List Char)
  | 0, _ => none
  | bound + 1, input =>
      match skipBlanks input with
      | 'n' :: 'u' :: 'l' :: 'l' :: rest => some (null, rest)
      | 't' :: 'r' :: 'u' :: 'e' :: rest => some (bool true, rest)
      | 'f' :: 'a' :: 'l' :: 's' :: 'e' :: rest => some (bool false, rest)
      | '"' :: rest =>
          match readString (rest.length + 1) (some []) rest with
          | none => none
          | some (some text, rest) => some (string text, rest)
          | some (none, rest) => some (brokenString, rest)
      | '[' :: rest =>
          match skipBlanks rest with
          | ']' :: rest => some (array [], rest)
          | rest => readItems bound [] rest
      | '\x7b' :: rest =>
          match skipBlanks rest with
          | '\x7d' :: rest => some (object [], rest)
          | rest => readMembers bound [] rest
      | rest => readNumber rest

def readItems : Nat → List Json → List Char → Option (Json × List Char)
  | 0, _, _ => none
  | bound + 1, reversed, input =>
      match readValue bound input with
      | none => none
      | some (item, rest) =>
          match skipBlanks rest with
          | ',' :: rest => readItems bound (item :: reversed) rest
          | ']' :: rest => some (array (item :: reversed).reverse, rest)
          | _ => none

def readMembers : Nat → List (String × Json) → List Char → Option (Json × List Char)
  | 0, _, _ => none
  | bound + 1, reversed, input =>
      match skipBlanks input with
      | '"' :: rest =>
          match readString (rest.length + 1) (some []) rest with
          | some (some name, rest) =>
              match skipBlanks rest with
              | ':' :: rest =>
                  match readValue bound rest with
                  | none => none
                  | some (value, rest) =>
                      match skipBlanks rest with
                      | ',' :: rest => readMembers bound ((name, value) :: reversed) rest
                      | '\x7d' :: rest => some (object ((name, value) :: reversed).reverse, rest)
                      | _ => none
              | _ => none
          | _ => none
      | _ => none

end

def parse? (source : String) : Option Json :=
  let input := source.toList
  match readValue (2 * input.length + 2) input with
  | some (value, rest) => if (skipBlanks rest).isEmpty then some value else none
  | none => none

end Json

end SyntaxGraph
