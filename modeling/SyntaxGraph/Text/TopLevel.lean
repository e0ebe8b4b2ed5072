/-!
Splitting a text at a separator that stands outside quotes and parentheses. A quote runs to the
next quote of its kind; parentheses count outside quotes only. Quotes and parentheses are never
separators themselves.
-/

set_option autoImplicit false

namespace SyntaxGraph.Text

inductive SplitFault where
  | unbalancedClose
  | unterminatedQuote
  | unbalancedOpen
deriving DecidableEq, Repr

def SplitFault.message : SplitFault → String
  | .unbalancedClose => "unbalanced ')'"
  | .unterminatedQuote => "unterminated quote"
  | .unbalancedOpen => "unbalanced '('"

/-- What surrounds a position: the quote it stands in, and the parentheses open around it. -/
structure Nesting where
  quote : Option Char
  depth : Nat
deriving DecidableEq, Repr

namespace Nesting

def top : Nesting := ⟨none, 0⟩

def isQuote (character : Char) : Bool := character = '\'' || character = '"'

def advance (nesting : Nesting) (character : Char) : Except SplitFault Nesting :=
  match nesting.quote with
  | some quote => .ok (if character = quote then { nesting with quote := none } else nesting)
  | none =>
      if isQuote character then .ok { nesting with quote := some character }
      else if character = '(' then .ok { nesting with depth := nesting.depth + 1 }
      else if character = ')' then
        match nesting.depth with
        | 0 => .error .unbalancedClose
        | depth + 1 => .ok { nesting with depth := depth }
      else .ok nesting

def separates (nesting : Nesting) (separator character : Char) : Bool :=
  nesting = top && character = separator && !isQuote character && character ≠ '(' &&
    character ≠ ')'

/-- A text may end only outside quotes and parentheses; an open quote is reported first. -/
def finish (nesting : Nesting) : Except SplitFault Unit :=
  if nesting.quote.isSome then .error .unterminatedQuote
  else if nesting.depth ≠ 0 then .error .unbalancedOpen
  else .ok ()

end Nesting

def extendFirst (character : Char) : List (List Char) → List (List Char)
  | [] => [[character]]
  | first :: rest => (character :: first) :: rest

def splitFrom (separator : Char) : Nesting → List Char → Except SplitFault (List (List Char))
  | nesting, [] => do
      nesting.finish
      return [[]]
  | nesting, character :: rest =>
      if nesting.separates separator character then do
        return [] :: (← splitFrom separator nesting rest)
      else do
        let behind ← nesting.advance character
        return extendFirst character (← splitFrom separator behind rest)

/-- The parts between top-level separators, empty ones included. -/
def splitTopLevel (separator : Char) (text : List Char) : Except SplitFault (List (List Char)) :=
  splitFrom separator .top text

end SyntaxGraph.Text
