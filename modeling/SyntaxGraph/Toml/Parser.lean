import SyntaxGraph.Json.Parser
import SyntaxGraph.Toml.Scalar
import SyntaxGraph.Toml.Table

/-!
Reading TOML documents into JSON values. Lines end with a line feed, before which a carriage return
may stand; other characters below the space, tabs apart, are allowed nowhere.
-/

set_option autoImplicit false

namespace SyntaxGraph

namespace Toml

def isBlankChar (character : Char) : Bool := character = ' ' || character = '\t'

def skipBlanks (input : List Char) : List Char := input.dropWhile isBlankChar

def isPlainChar (character : Char) : Bool :=
  character = '\t' || (0x20 ≤ character.val && character.val ≠ 0x7f)

def skipNewline? : List Char → Option (List Char)
  | '\n' :: rest => some rest
  | '\r' :: '\n' :: rest => some rest
  | _ => none

def skipComment : List Char → List Char
  | '#' :: rest => rest.dropWhile isPlainChar
  | input => input

def endLine? (input : List Char) : Option (List Char) :=
  match skipComment (skipBlanks input) with
  | [] => some []
  | rest => skipNewline? rest

/-- Blanks, comments and ends of lines, as they may stand between the items of an array. -/
def skipLines : Nat → List Char → List Char
  | 0, input => input
  | bound + 1, input =>
      let rest := skipBlanks input
      match skipNewline? (skipComment rest) with
      | some next => skipLines bound next
      | none => rest

-- Strings

def readEscape : List Char → Option (Char × List Char)
  | 'b' :: rest => some ('\x08', rest)
  | 't' :: rest => some ('\t', rest)
  | 'n' :: rest => some ('\n', rest)
  | 'f' :: rest => some ('\x0c', rest)
  | 'r' :: rest => some ('\r', rest)
  | '"' :: rest => some ('"', rest)
  | '\\' :: rest => some ('\\', rest)
  | 'u' :: rest => readScalar 4 rest
  | 'U' :: rest => readScalar 8 rest
  | _ => none
where
  readScalar (count : Nat) (input : List Char) : Option (Char × List Char) :=
    let digits := input.take count
    let code := valueOf 16 digits
    if digits.length = count && digits.all isHexDigit &&
        (code < 0xD800 || (0xE000 ≤ code && code < 0x110000)) then
      some (Char.ofNat code, input.drop count)
    else none

def readBasic : Nat → List Char → List Char → Option (String × List Char)
  | 0, _, _ => none
  | bound + 1, reversed, input =>
      match input with
      | '"' :: rest => some (String.ofList reversed.reverse, rest)
      | '\\' :: rest => do
          let (character, rest) ← readEscape rest
          readBasic bound (character :: reversed) rest
      | character :: rest =>
          if isPlainChar character then readBasic bound (character :: reversed) rest else none
      | [] => none

def readLiteral (input : List Char) : Option (String × List Char) :=
  let text := input.takeWhile fun character => isPlainChar character && character ≠ '\''
  match input.drop text.length with
  | '\'' :: rest => some (String.ofList text, rest)
  | _ => none

/-- The end of a string in triple quotes: two quotes more may belong to the string. -/
def closeTriple? (quote : Char) (input : List Char) : Option (List Char × List Char) :=
  let quotes := input.takeWhile (· = quote)
  if 3 ≤ quotes.length && quotes.length ≤ 5 then
    some (List.replicate (quotes.length - 3) quote, input.drop quotes.length)
  else if 5 < quotes.length then some ([quote, quote], input.drop 5)
  else none

/-- The rest behind blanks up to the end of a line, and all blanks and ends of lines after it. -/
def skipFolded? (input : List Char) : Option (List Char) := do
  let next ← skipNewline? (skipBlanks input)
  return skipAll next.length next
where
  skipAll : Nat → List Char → List Char
    | 0, input => input
    | bound + 1, input =>
        match skipNewline? (skipBlanks input) with
        | some next => skipAll bound next
        | none => skipBlanks input

def readTripleBasic : Nat → List Char → List Char → Option (String × List Char)
  | 0, _, _ => none
  | bound + 1, reversed, input =>
      match closeTriple? '"' input with
      | some (quotes, rest) => some (String.ofList (reversed.reverse ++ quotes), rest)
      | none =>
          match input with
          | '\\' :: rest =>
              match skipFolded? rest with
              | some next => readTripleBasic bound reversed next
              | none => do
                  let (character, rest) ← readEscape rest
                  readTripleBasic bound (character :: reversed) rest
          | character :: rest =>
              match skipNewline? input with
              | some next => readTripleBasic bound ('\n' :: reversed) next
              | none =>
                  if isPlainChar character then
                    readTripleBasic bound (character :: reversed) rest
                  else none
          | [] => none

def readTripleLiteral : Nat → List Char → List Char → Option (String × List Char)
  | 0, _, _ => none
  | bound + 1, reversed, input =>
      match closeTriple? '\'' input with
      | some (quotes, rest) => some (String.ofList (reversed.reverse ++ quotes), rest)
      | none =>
          match input with
          | character :: rest =>
              match skipNewline? input with
              | some next => readTripleLiteral bound ('\n' :: reversed) next
              | none =>
                  if isPlainChar character then
                    readTripleLiteral bound (character :: reversed) rest
                  else none
          | [] => none

/-- A string in triple quotes does not begin with the end of a line. -/
def afterOpening (input : List Char) : List Char := (skipNewline? input).getD input

def readString : List Char → Option (String × List Char)
  | '"' :: '"' :: '"' :: rest => readTripleBasic (rest.length + 1) [] (afterOpening rest)
  | '\'' :: '\'' :: '\'' :: rest => readTripleLiteral (rest.length + 1) [] (afterOpening rest)
  | '"' :: rest => readBasic (rest.length + 1) [] rest
  | '\'' :: rest => readLiteral rest
  | _ => none

-- Keys

def isBareChar (character : Char) : Bool :=
  character.isAlphanum || character = '_' || character = '-'

def readSimpleKey : List Char → Option (String × List Char)
  | '"' :: rest => readBasic (rest.length + 1) [] rest
  | '\'' :: rest => readLiteral rest
  | input =>
      let key := input.takeWhile isBareChar
      if key.isEmpty then none else some (String.ofList key, input.drop key.length)

/-- Keys with more parts, and values that nest more deeply, are refused. -/
def maxNesting : Nat := 79

def readKey : Nat → List Char → Option (List String × List Char)
  | 0, _ => none
  | bound + 1, input => do
      let (part, rest) ← readSimpleKey (skipBlanks input)
      match skipBlanks rest with
      | '.' :: rest =>
          let (parts, rest) ← readKey bound rest
          return (part :: parts, rest)
      | rest => return ([part], rest)

-- Values

def isTokenChar (character : Char) : Bool :=
  character.isAlphanum || character = '_' || character = '+' || character = '-' ||
    character = '.' || character = ':'

/-- A token; a date with a time behind one blank is a single one. -/
def readPlain (input : List Char) : Option (Json × List Char) := do
  let token := input.takeWhile isTokenChar
  let rest := input.drop token.length
  match readDate token, rest with
  | some (_, []), ' ' :: next =>
      let time := next.takeWhile isTokenChar
      if (readTime time).isSome then
        return (← readToken (token ++ ' ' :: time), next.drop time.length)
      else return (← readToken token, rest)
  | _, _ => return (← readToken token, rest)

mutual

/-- Reads a value. The first number bounds nested and repeated calls, the second the nesting. -/
def readValue : Nat → Nat → List Char → Option (Json × List Char)
  | 0, _, _ => none
  | bound + 1, nesting, input =>
      match input with
      | '[' :: rest =>
          match nesting with
          | 0 => none
          | nesting + 1 => readItems bound nesting [] (skipLines rest.length rest)
      | '\x7b' :: rest =>
          match nesting, skipBlanks rest with
          | 0, _ => none
          | _ + 1, '\x7d' :: rest => some (.object [], rest)
          | nesting + 1, rest => readMembers bound nesting [] rest
      | '"' :: _ | '\'' :: _ => (readString input).map fun (text, rest) => (.string text, rest)
      | _ => readPlain input

def readItems : Nat → Nat → List Json → List Char → Option (Json × List Char)
  | 0, _, _, _ => none
  | bound + 1, nesting, reversed, input =>
      match input with
      | ']' :: rest => some (.array reversed.reverse, rest)
      | _ =>
          match readValue bound nesting input with
          | none => none
          | some (item, rest) =>
              match skipLines rest.length rest with
              | ',' :: rest => readItems bound nesting (item :: reversed) (skipLines rest.length rest)
              | ']' :: rest => some (.array (item :: reversed).reverse, rest)
              | _ => none

def readMembers : Nat → Nat → Members → List Char → Option (Json × List Char)
  | 0, _, _, _ => none
  | bound + 1, nesting, members, input =>
      match readKey (maxNesting + 1) input with
      | some (key, '=' :: rest) =>
          match readValue bound nesting (skipBlanks rest) with
          | none => none
          | some (value, rest) =>
              match addValue key (.value value) .headed members with
              | none => none
              | some members =>
                  match skipBlanks rest with
                  | ',' :: rest => readMembers bound nesting members rest
                  | '\x7d' :: rest => some (.object (membersToJson members), rest)
                  | _ => none
      | _ => none

end

-- Documents

def readLine (draft : Draft) (input : List Char) : Option (Draft × List Char) :=
  match skipBlanks input with
  | '[' :: '[' :: rest => do
      let (key, rest) ← readKey maxNesting rest
      match rest with
      | ']' :: ']' :: rest => return (← draft.openElement key, ← endLine? rest)
      | _ => none
  | '[' :: rest => do
      let (key, rest) ← readKey maxNesting rest
      match rest with
      | ']' :: rest => return (← draft.openTable key, ← endLine? rest)
      | _ => none
  | start =>
      match endLine? start with
      | some rest => some (draft, rest)
      | none => do
          let (key, rest) ← readKey maxNesting start
          match rest with
          | '=' :: rest =>
              let (value, rest) ← readValue (2 * rest.length + 2) maxNesting (skipBlanks rest)
              return (← draft.add key value, ← endLine? rest)
          | _ => none

def readLines : Nat → Draft → List Char → Option Draft
  | 0, _, _ => none
  | bound + 1, draft, input =>
      match input with
      | [] => some draft
      | _ => do
          let (draft, rest) ← readLine draft input
          readLines bound draft rest

def parse? (source : String) : Option Json := do
  let input := match source.toList with
    | '\ufeff' :: rest => rest
    | input => input
  let draft ← readLines (input.length + 1) .start input
  return .object (membersToJson (← draft.close))

end Toml

end SyntaxGraph
