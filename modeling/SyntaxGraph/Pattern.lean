/-!
Patterns: what a node and its children have to look like, and under which names they are bound.
Alternatives are tried at the same node, so a pattern unfolds to the node forms it stands for.
-/

set_option autoImplicit false

namespace SyntaxGraph

/-- Captures name the matched node; without any it is bound under its own rule. Children are
matched in order and need not be neighbours. Forbidden rules must not occur among the direct
children; they are sorted and distinct. Optional matters where the pattern is a child. -/
inductive Pattern where
  | node (rule : String) (captures : List String) (children : List Pattern)
      (forbidden : List String) (optional : Bool)
  | alternatives (options : List Pattern) (optional : Bool)
deriving Repr, Inhabited

structure NodeForm where
  rule : String
  captures : List String
  children : List Pattern
  forbidden : List String
deriving Repr, Inhabited

namespace Pattern

def wildcard : String := "."

/-- The rule that any node has, and that also looks for the pattern at every deeper level. -/
def descendants : String := ".+"

def isOptional : Pattern → Bool
  | .node _ _ _ _ optional => optional
  | .alternatives _ optional => optional

mutual

def nodeForms : Pattern → List NodeForm
  | .node rule captures children forbidden _ => [⟨rule, captures, children, forbidden⟩]
  | .alternatives options _ => allNodeForms options

def allNodeForms : List Pattern → List NodeForm
  | [] => []
  | pattern :: rest => nodeForms pattern ++ allNodeForms rest

end

mutual

/-- A question mark if optional, then the rule, captures, forbidden rules and children of a node
pattern, or the alternatives in brackets. -/
def text : Pattern → String
  | .node rule captures children forbidden optional =>
      let mark := if optional then "?" else ""
      let names := String.join (captures.map (" @" ++ ·))
      let excluded := String.join (forbidden.map (" !" ++ ·))
      let nested := if children.isEmpty then "" else "(" ++ texts ", " children ++ ")"
      mark ++ rule ++ names ++ excluded ++ nested
  | .alternatives options optional =>
      (if optional then "?" else "") ++ "[" ++ texts " | " options ++ "]"

def texts (separator : String) : List Pattern → String
  | [] => ""
  | [pattern] => text pattern
  | pattern :: rest => text pattern ++ separator ++ texts separator rest

end

end Pattern

end SyntaxGraph
