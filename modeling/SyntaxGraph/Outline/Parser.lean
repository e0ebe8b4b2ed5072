import SyntaxGraph.Outline.Basic

/-!
Reading outline notation. A failure keeps the input that was left, from which its byte position
follows. White space is skipped before every token.
-/

set_option autoImplicit false

namespace SyntaxGraph

inductive OutlineFault where
  | expectedRule
  | expectedQuote
  | unterminatedText
  | expectedSeparator
  | trailingInput
deriving DecidableEq, Repr

def OutlineFault.message : OutlineFault → String
  | .expectedRule => "expected rule name"
  | .expectedQuote => "expected '\"'"
  | .unterminatedText => "unterminated string"
  | .expectedSeparator => "expected ',' or ')'"
  | .trailingInput => "trailing input"

/-- The position counts bytes from the start of the text. -/
structure OutlineError where
  position : Nat
  fault : OutlineFault
deriving DecidableEq, Repr

def OutlineError.message (error : OutlineError) : String :=
  s!"invalid outline at byte {error.position}: {error.fault.message}"

namespace Outline

abbrev Stop := OutlineFault × List Char

def skipBlanks (input : List Char) : List Char := input.dropWhile isOutlineBlank

def readText : List Char → List Char → Except Stop (String × List Char)
  | _, [] => .error (.unterminatedText, [])
  | reversed, '"' :: rest => .ok (String.ofList reversed.reverse, rest)
  | _, ['\\'] => .error (.unterminatedText, [])
  | reversed, '\\' :: character :: rest => readText (character :: reversed) rest
  | reversed, character :: rest => readText (character :: reversed) rest

def readQuoted (input : List Char) : Except Stop (String × List Char) :=
  match skipBlanks input with
  | '"' :: rest => readText [] rest
  | rest => .error (.expectedQuote, rest)

def readRule (input : List Char) : Except Stop (String × List Char) :=
  let start := skipBlanks input
  let word := start.takeWhile isRuleChar
  if word.isEmpty then .error (.expectedRule, start)
  else .ok (if word = ['_'] then "" else String.ofList word, start.dropWhile isRuleChar)

def readOptionalText (input : List Char) : Except Stop (Option String × List Char) :=
  match skipBlanks input with
  | '=' :: rest => (readQuoted rest).map fun (text, rest) => (some text, rest)
  | rest => .ok (none, rest)

mutual

/-- The bound limits the number of nested calls; twice the input's length is enough. -/
def readNode : Nat → List Char → Except Stop (Outline × List Char)
  | 0, input => .error (.expectedRule, input)
  | bound + 1, input => do
      let (rule, afterRule) ← readRule input
      let (text, afterText) ← readOptionalText afterRule
      match skipBlanks afterText with
      | '(' :: rest =>
          match skipBlanks rest with
          | ')' :: rest => .ok (.node rule text [], rest)
          | rest =>
              let (children, afterChildren) ← readSiblings bound rest
              .ok (.node rule text children, afterChildren)
      | rest => .ok (.node rule text [], rest)

def readSiblings : Nat → List Char → Except Stop (List Outline × List Char)
  | 0, input => .error (.expectedRule, input)
  | bound + 1, input => do
      let (first, afterFirst) ← readNode bound input
      match skipBlanks afterFirst with
      | ',' :: rest =>
          let (others, afterOthers) ← readSiblings bound rest
          .ok (first :: others, afterOthers)
      | ')' :: rest => .ok ([first], rest)
      | rest => .error (.expectedSeparator, rest)

end

def byteSize (input : List Char) : Nat := (input.map Char.utf8Size).foldl (· + ·) 0

def parse (source : String) : Except OutlineError Outline :=
  let input := source.toList
  let failure (fault : OutlineFault) (rest : List Char) : OutlineError :=
    ⟨byteSize input - byteSize rest, fault⟩
  match readNode (2 * input.length + 2) input with
  | .error (fault, rest) => .error (failure fault rest)
  | .ok (outline, rest) =>
      match skipBlanks rest with
      | [] => .ok outline
      | rest => .error (failure .trailingInput rest)

end Outline

end SyntaxGraph
