import SyntaxGraph.Json.Value

/-!
Numbers and dates of TOML, each read from a token without white space. An integer becomes a JSON
number in decimal digits, a float keeps its spelling, and a date becomes an object of its own with
the date as a text.
-/

set_option autoImplicit false

namespace SyntaxGraph

namespace Toml

/-- Removes underscores, each of which has to stand between two digits. -/
def dropUnderscores (isDigit : Char → Bool) : List Char → Option (List Char)
  | [] => none
  | [digit] => if isDigit digit then some [digit] else none
  | digit :: '_' :: rest =>
      if isDigit digit then (dropUnderscores isDigit rest).map (digit :: ·) else none
  | digit :: rest =>
      if isDigit digit then (dropUnderscores isDigit rest).map (digit :: ·) else none

def digitValue (character : Char) : Nat :=
  if character.isDigit then character.toNat - '0'.toNat
  else if 'a' ≤ character then character.toNat - 'a'.toNat + 10
  else character.toNat - 'A'.toNat + 10

def valueOf (base : Nat) (digits : List Char) : Nat :=
  digits.foldl (fun value digit => value * base + digitValue digit) 0

def isHexDigit (character : Char) : Bool :=
  character.isDigit || ('a' ≤ character && character ≤ 'f') ||
    ('A' ≤ character && character ≤ 'F')

def isOctalDigit (character : Char) : Bool := '0' ≤ character && character ≤ '7'

def isBinaryDigit (character : Char) : Bool := character = '0' || character = '1'

def maxInteger : Nat := UInt64.size / 2 - 1

def readDecimal (digits : List Char) : Option (List Char) := do
  let plain ← dropUnderscores Char.isDigit digits
  if plain.head? = some '0' && plain.length ≠ 1 then none else return plain

def readBased (base : Nat) (isDigit : Char → Bool) (digits : List Char) : Option Json := do
  let value := valueOf base (← dropUnderscores isDigit digits)
  if value ≤ maxInteger then return .natural value else none

def splitSign : List Char → Bool × List Char
  | '+' :: rest => (false, rest)
  | '-' :: rest => (true, rest)
  | rest => (false, rest)

def readInteger (token : List Char) : Option Json :=
  match token with
  | '0' :: 'x' :: digits => readBased 16 isHexDigit digits
  | '0' :: 'o' :: digits => readBased 8 isOctalDigit digits
  | '0' :: 'b' :: digits => readBased 2 isBinaryDigit digits
  | _ => do
      let (negative, unsigned) := splitSign token
      let value := valueOf 10 (← readDecimal unsigned)
      if negative && value ≠ 0 then
        if value ≤ maxInteger + 1 then return .number ("-" ++ toString value) else none
      else if value ≤ maxInteger then return .natural value
      else none

/-- Whether a decimal fraction is too large for a float of 64 bits, which has its last rounding
boundary half a unit above the largest one. -/
def exceedsFloat (mantissa : Nat) (exponent : Int) : Bool :=
  let digits := (toString mantissa).length
  if mantissa = 0 then false
  else if (digits : Int) + exponent > 400 then true
  else if (digits : Int) + exponent < 300 then false
  else
    let boundary : Nat := 1 <<< 1024 - 1 <<< 970
    if 0 ≤ exponent then boundary ≤ mantissa * Nat.pow 10 exponent.toNat
    else boundary * Nat.pow 10 (-exponent).toNat ≤ mantissa

def readFloat (token : List Char) : Option Json := do
  let (_, unsigned) := splitSign token
  if unsigned = "inf".toList || unsigned = "nan".toList then
    return .number (String.ofList token)
  let isMark (character : Char) : Bool := character = 'e' || character = 'E'
  let before := unsigned.takeWhile fun character => !isMark character
  let whole ← readDecimal (before.takeWhile (· ≠ '.'))
  let fraction ← match before.dropWhile (· ≠ '.') with
    | [] => some []
    | _ :: digits => dropUnderscores Char.isDigit digits
  let exponent ← match unsigned.dropWhile fun character => !isMark character with
    | [] => some none
    | _ :: signed => do
        let (negative, digits) := splitSign signed
        let value := valueOf 10 (← dropUnderscores Char.isDigit digits)
        some (some (if negative then -(value : Int) else (value : Int)))
  if fraction.isEmpty && exponent.isNone then none
  let mantissa := valueOf 10 (whole ++ fraction)
  if exceedsFloat mantissa (exponent.getD 0 - fraction.length) then none
  else return .number (String.ofList token)

-- Dates

def readFixed (count : Nat) (input : List Char) : Option (Nat × List Char) :=
  let digits := input.take count
  if digits.length = count && digits.all Char.isDigit then
    some (valueOf 10 digits, input.drop count)
  else none

def expectChar (character : Char) : List Char → Option (List Char)
  | first :: rest => if first = character then some rest else none
  | [] => none

def isLeapYear (year : Nat) : Bool := (year % 4 = 0 && year % 100 ≠ 0) || year % 400 = 0

def daysInMonth (year month : Nat) : Nat :=
  if month = 2 then if isLeapYear year then 29 else 28
  else if month = 4 || month = 6 || month = 9 || month = 11 then 30
  else 31

def padded (width value : Nat) : String :=
  let digits := toString value
  String.ofList (List.replicate (width - digits.length) '0') ++ digits

def readDate (input : List Char) : Option (String × List Char) := do
  let (year, input) ← readFixed 4 input
  let (month, input) ← readFixed 2 (← expectChar '-' input)
  let (day, input) ← readFixed 2 (← expectChar '-' input)
  if 1 ≤ month && month ≤ 12 && 1 ≤ day && day ≤ daysInMonth year month then
    return (padded 4 year ++ "-" ++ padded 2 month ++ "-" ++ padded 2 day, input)
  else none

def fractionText (digits : List Char) : String :=
  let kept := ((digits.take 9).reverse.dropWhile (· = '0')).reverse
  if kept.isEmpty then "" else "." ++ String.ofList kept

def readTime (input : List Char) : Option (String × List Char) := do
  let (hour, input) ← readFixed 2 input
  let (minute, input) ← readFixed 2 (← expectChar ':' input)
  let (second, input) ← readFixed 2 (← expectChar ':' input)
  if hour ≤ 23 && minute ≤ 59 && second ≤ 60 then
    let written := padded 2 hour ++ ":" ++ padded 2 minute ++ ":" ++ padded 2 second
    match input with
    | '.' :: rest =>
        let digits := rest.takeWhile Char.isDigit
        if digits.isEmpty then none
        else return (written ++ fractionText digits, rest.dropWhile Char.isDigit)
    | _ => return (written, input)
  else none

def readOffset (input : List Char) : Option String :=
  match input with
  | [] => some ""
  | ['Z'] | ['z'] => some "Z"
  | sign :: rest =>
      if sign = '+' || sign = '-' then do
        let (hours, rest) ← readFixed 2 rest
        let (minutes, rest) ← readFixed 2 (← expectChar ':' rest)
        if hours ≤ 23 && minutes ≤ 59 && rest.isEmpty then
          return String.ofList [sign] ++ padded 2 hours ++ ":" ++ padded 2 minutes
        else none
      else none

def dateMember : String := "$__toml_private_datetime"

def dateObject (text : String) : Json := .object [(dateMember, .string text)]

def readDateTime (token : List Char) : Option Json :=
  match readDate token with
  | some (date, []) => some (dateObject date)
  | some (date, separator :: rest) =>
      if separator = 'T' || separator = 't' || separator = ' ' then do
        let (time, rest) ← readTime rest
        return dateObject (date ++ "T" ++ time ++ (← readOffset rest))
      else none
  | none =>
      match readTime token with
      | some (time, []) => some (dateObject time)
      | _ => none

def readToken (token : List Char) : Option Json :=
  if token = "true".toList then some (.bool true)
  else if token = "false".toList then some (.bool false)
  else readInteger token <|> readFloat token <|> readDateTime token

end Toml

end SyntaxGraph
