/-!
Outline notation, a one-line text form of a tree: `node := rule ('=' quoted)? ('(' node, … ')')?`.
This module holds the notation's abstract form and the text which a node without a written
text stands for. Reading and writing are in the neighbouring modules.
-/

set_option autoImplicit false

namespace SyntaxGraph

/-- A terminal, written with the rule `_`, has the empty rule here. -/
inductive Outline where
  | node (rule : String) (text : Option String) (children : List Outline)
deriving Repr, Inhabited

namespace Outline

def rule : Outline → String
  | .node rule _ _ => rule

def children : Outline → List Outline
  | .node _ _ children => children

/-- The written text; without one, a leaf stands for its rule and an inner node for the texts
of its children, one space apart. -/
def fullText : Outline → String
  | .node rule text children =>
      match text with
      | some text => text
      | none =>
          match children with
          | [] => rule
          | children => " ".intercalate (children.map fullText)

def size : Outline → Nat
  | .node _ _ children => (children.map size).foldl (· + ·) 1

end Outline

def isRuleChar (character : Char) : Bool :=
  character.isAlphanum || character = '_' || character = '-' || character = '.'

/-- White space between the tokens of an outline, which is ASCII only. -/
def isOutlineBlank (character : Char) : Bool :=
  character = ' ' || character = '\t' || character = '\n' || character = '\x0c' || character = '\r'

end SyntaxGraph
