import SyntaxGraph.Expression.Basic
import SyntaxGraph.Text.Alphanumeric
import SyntaxGraph.Text.WhiteSpace

/-!
Reading expressions: `term ('+' term)*`, where a term is a quoted literal, a reference
`@name?.call(argument, …)?` or a bare literal. White space around terms, names and calls is
dropped. An argument of a call is an expression again, inside a strictly shorter text.
-/

set_option autoImplicit false

namespace SyntaxGraph

namespace Expression

def unquote? : List Char → Option (List Char)
  | [] => none
  | first :: rest =>
      if Text.Nesting.isQuote first && rest.getLast? = some first then some rest.dropLast else none

def dropMark (text : List Char) : List Char × Bool :=
  if text.getLast? = some '?' then (text.dropLast, true) else (text, false)

def isNameChar (character : Char) : Bool :=
  Text.isAlphanumeric character || character = '_' || character = '-'

def split (separator : Char) (text : List Char) : Except ExpressionFault (List (List Char)) :=
  match Text.splitTopLevel separator text with
  | .ok parts => .ok parts
  | .error fault => .error (.split fault)

def readCall (readArgument : List Char → Except ExpressionFault Expression) (segment : List Char) :
    Except ExpressionFault DotCall :=
  let call := Text.trimChars segment
  let name := call.takeWhile (· ≠ '(')
  match call.dropWhile (· ≠ '(') with
  | [] => if call.isEmpty then .error .emptyCall else .ok (.mk (String.ofList call) [])
  | _ :: inside =>
      if inside.getLast? ≠ some ')' then .error (.unclosedCall (String.ofList call))
      else
        let inner := inside.dropLast
        let callName := String.ofList (Text.trimChars name)
        if inner.all Text.isWhiteSpace then .ok (.mk callName [])
        else do
          let parts ← split ',' inner
          return .mk callName (← parts.mapM readArgument)

/-- Reads what follows the at sign. The optional mark may stand at the end or behind the name. -/
def readReference (readArgument : List Char → Except ExpressionFault Expression)
    (text : List Char) : Except ExpressionFault Reference := do
  let (marked, markedAtEnd) := dropMark (Text.trimChars text)
  let segments ← split '.' marked
  let (name, markedName) := dropMark (Text.trimChars (segments.headD []))
  if name.isEmpty || !name.all isNameChar then
    throw (.captureName (String.ofList name))
  let calls ← (segments.drop 1).mapM (readCall readArgument)
  return .mk (String.ofList name) (markedAtEnd || markedName) calls

def readTerm (readArgument : List Char → Except ExpressionFault Expression) (part : List Char) :
    Except ExpressionFault Term :=
  let term := Text.trimChars part
  match unquote? term with
  | some literal => .ok (.literal (String.ofList literal))
  | none =>
      match term with
      | '@' :: reference => (readReference readArgument reference).map .reference
      | _ => .ok (.literal (String.ofList term))

/-- The bound limits the nesting of calls; the length of the text is enough. -/
def read : Nat → List Char → Except ExpressionFault Expression
  | 0, text => .ok (.mk (String.ofList text) [])
  | bound + 1, text => do
      let parts ← split '+' text
      return .mk (String.ofList text) (← parts.mapM (readTerm (read bound)))

def parse (source : String) : Except ExpressionError Expression :=
  match read (source.length + 1) source.toList with
  | .ok expression => .ok expression
  | .error fault => .error ⟨source, fault⟩

end Expression

/-- The capture that a reference is about: no at sign, no calls, no optional mark. -/
def baseCaptureName (reference : String) : String :=
  let trimmed := Text.trimChars reference.toList
  let unsigned := match trimmed with
    | '@' :: rest => rest
    | _ => trimmed
  String.ofList (Expression.dropMark (unsigned.takeWhile (· ≠ '.'))).1

end SyntaxGraph
