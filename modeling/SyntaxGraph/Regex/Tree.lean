import SyntaxGraph.Regex.CharSet
import SyntaxGraph.Regex.Basic

/-!
Regular expressions as they are written, with flags and groups still in place.
-/

set_option autoImplicit false

namespace SyntaxGraph

inductive RegexFlag where
  | ignoreCase
  | multiLine
  | dotMatchesAll
  | swapGreed
  | unicode
  | anyLineEnd
  | ignoreSpace
deriving DecidableEq, Repr

abbrev FlagChange := RegexFlag × Bool

inductive EscapeClass where
  | digit
  | space
  | word
deriving DecidableEq, Repr

inductive ClassOperator where
  | intersection
  | difference
  | symmetricDifference
deriving DecidableEq, Repr

/-- A literal may be written as a byte of two hexadecimal digits. -/
structure Literal where
  character : Char
  asByte : Bool
deriving DecidableEq, Repr

inductive ClassTree where
  | empty
  | literal (literal : Literal)
  | range (first last : Literal)
  | escape (name : EscapeClass) (negated : Bool)
  | property (name : CharProperty) (negated : Bool)
  | ascii (ranges : List (Char × Char)) (negated : Bool)
  | bracket (inner : ClassTree) (negated : Bool)
  | union (left right : ClassTree)
  | operation (operator : ClassOperator) (left right : ClassTree)
deriving DecidableEq, Repr

/-- Assertions whose meaning does not hang on flags, or only on the one for Unicode. -/
inductive Assertion where
  | lineStart
  | lineEnd
  | textStart
  | textEnd
  | wordBoundary
  | noWordBoundary
  | wordStart
  | wordEnd
  | wordStartHalf
  | wordEndHalf
deriving DecidableEq, Repr

inductive RegexTree where
  | empty
  | flags (changes : List FlagChange)
  | literal (literal : Literal)
  | dot
  | assertion (assertion : Assertion)
  | escape (name : EscapeClass) (negated : Bool)
  | property (name : CharProperty) (negated : Bool)
  | bracket (inner : ClassTree) (negated : Bool)
  | repeated (inner : RegexTree) (least : Nat) (greatest : Option Nat)
  | group (changes : List FlagChange) (inner : RegexTree)
  | sequence (parts : List RegexTree)
  | choice (options : List RegexTree)
deriving Repr, Inhabited

namespace ClassTree

/-- Nesting of brackets, operations and unions of several members: of the tree as a whole, and of
the members alone if it is a union. -/
def depths : ClassTree → Nat × Nat
  | .bracket inner _ =>
      let depth := (depths inner).1 + 1
      (depth, depth)
  | .union .empty right =>
      let depth := (depths right).1
      (depth, depth)
  | .union left right =>
      let members := max (depths left).2 (depths right).1
      (members + 1, members)
  | .operation _ left right =>
      let depth := max (depths left).1 (depths right).1 + 1
      (depth, depth)
  | _ => (0, 0)

def depth (tree : ClassTree) : Nat := tree.depths.1

end ClassTree

namespace RegexTree

def maxDepth : Nat := 250

mutual

def depth : RegexTree → Nat
  | .bracket inner _ => inner.depth + 1
  | .repeated inner _ _ => depth inner + 1
  | .group _ inner => depth inner + 1
  | .sequence parts => allDepth parts + 1
  | .choice options => allDepth options + 1
  | _ => 0

def allDepth : List RegexTree → Nat
  | [] => 0
  | part :: rest => max (depth part) (allDepth rest)

end

end RegexTree

end SyntaxGraph
