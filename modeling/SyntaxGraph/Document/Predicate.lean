import SyntaxGraph.Document.Draft
import SyntaxGraph.Document.Fault
import SyntaxGraph.Predicate

/-!
Checking written predicates: expressions have to read, and regular expressions to be well-formed
between the anchors that make them match whole values.
-/

set_option autoImplicit false

namespace SyntaxGraph

def checkExpression (source : String) : Except EntryFault Expression :=
  match Expression.parse source with
  | .ok expression => .ok expression
  | .error error => .error (.expression error)

def checkOptional (source : Option String) : Except EntryFault (Option Expression) :=
  match source with
  | none => .ok none
  | some source => (checkExpression source).map some

def checkRegex (engine : RegexEngine) (pattern : String) : Except EntryFault (String → Bool) :=
  match engine (anchored pattern) with
  | some test => .ok test
  | none => .error (.regex pattern)

namespace PredicateDraft

def negateIf (negated : Bool) (predicate : Predicate) : Predicate :=
  if negated then .not predicate else predicate

def check (engine : RegexEngine) : PredicateDraft → Except EntryFault Predicate
  | .equals negated left right => do
      let leftSide ← checkExpression left
      return negateIf negated (.equals leftSide (← checkExpression right))
  | .endsWith negated value suffix => do
      let whole ← checkExpression value
      return negateIf negated (.endsWith whole (← checkExpression suffix))
  | .contains negated value part => do
      let whole ← checkExpression value
      return negateIf negated (.contains whole (← checkExpression part))
  | .fullMatch negated value regex => do
      let whole ← checkExpression value
      return negateIf negated (.fullMatch whole (anchored regex) (← checkRegex engine regex))
  | .anyOf value options => do
      let whole ← checkExpression value
      return .anyOf whole (← options.mapM checkExpression)
  | .isBound negated capture => .ok (negateIf negated (.isBound (baseCaptureName capture)))
  | .not predicate => do return .not (← predicate.check engine)

end PredicateDraft

end SyntaxGraph
