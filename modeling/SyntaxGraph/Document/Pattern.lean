import SyntaxGraph.Document.Draft
import SyntaxGraph.Document.Fault
import SyntaxGraph.Pattern
import SyntaxGraph.Text.WhiteSpace

/-!
Checking written patterns. A rule and a capture name need a character that is not white space, a
capture name has no leading at sign, and alternatives are not empty.
-/

set_option autoImplicit false

namespace SyntaxGraph

def isCaptureName (name : String) : Bool :=
  !Text.isBlank name && name.toList.head? ≠ some '@'

def sortedDistinct (texts : List String) : List String :=
  (StringMap.ofList (texts.map fun text => (text, ()))).keys

namespace PatternDraft

mutual

/-- A pattern is checked before its children, and children from left to right. -/
def check : PatternDraft → Except EntryFault Pattern
  | .alternatives options optional => do
      if options.isEmpty then
        throw .noAlternatives
      return .alternatives (← checkAll options) optional
  | .node rule captures children forbidden optional => do
      if Text.isBlank rule then
        throw .emptyRule
      match captures.find? fun name => !isCaptureName name with
      | some name => throw (.captureName name)
      | none =>
          return .node rule captures (← checkAll children) (sortedDistinct forbidden) optional

def checkAll : List PatternDraft → Except EntryFault (List Pattern)
  | [] => .ok []
  | pattern :: rest => do
      let first ← check pattern
      return first :: (← checkAll rest)

end

end PatternDraft

end SyntaxGraph
