import SyntaxGraph.Expression.Resolve
import SyntaxGraph.RegexEngine

/-!
Predicates gate matches and converters. They are evaluated in order, and the first one that fails
or cannot be resolved decides.
-/

set_option autoImplicit false

namespace SyntaxGraph

inductive Predicate where
  | equals (left right : Expression)
  | endsWith (value suffix : Expression)
  | contains (value part : Expression)
  /-- The whole value matches; the pattern is kept with its anchors. -/
  | fullMatch (value : Expression) (pattern : String) (test : String → Bool)
  | anyOf (value : Expression) (options : List Expression)
  /-- The capture is bound; nothing is resolved. -/
  | isBound (capture : String)
  | not (predicate : Predicate)
deriving Inhabited

namespace Predicate

/-- Whether an option equals the value. Options behind the first equal one are not resolved. -/
def anyEqual (context : MatchContext) (value : String) :
    List Expression → Except ResolveError Bool
  | [] => .ok false
  | option :: rest => do
      if (← option.resolve context) = value then
        return true
      anyEqual context value rest

def evaluate (context : MatchContext) : Predicate → Except ResolveError Bool
  | .equals left right => do
      let leftText ← left.resolve context
      return leftText = (← right.resolve context)
  | .endsWith value suffix => do
      let text ← value.resolve context
      return (← suffix.resolve context).toList.isSuffixOf text.toList
  | .contains value part => do
      let text ← value.resolve context
      return Text.containsPart (← part.resolve context).toList text.toList
  | .fullMatch value _ test => do return test (← value.resolve context)
  | .anyOf value options => do anyEqual context (← value.resolve context) options
  | .isBound capture => .ok (context.captures.contains capture)
  | .not predicate => (predicate.evaluate context).map (!·)

def allPass (context : MatchContext) : List Predicate → Except ResolveError Bool
  | [] => .ok true
  | predicate :: rest => do
      if ← predicate.evaluate context then allPass context rest else return false

end Predicate

end SyntaxGraph
