import SyntaxGraph.Regex.CharSet

/-!
Regular expressions and their matches. A position lies between two characters of a text; an
expression leads from a set of positions to the set of positions at which a match that starts in
the first set may end. Whether repetition is greedy makes no difference to that.
-/

set_option autoImplicit false

namespace SyntaxGraph

inductive Look where
  | textStart
  | textEnd
  | lineStart
  | lineEnd
  /-- A line ends before either a line feed, a carriage return, or the pair of them. -/
  | anyLineStart
  | anyLineEnd
  | wordBoundary (ascii : Bool)
  | noWordBoundary (ascii : Bool)
  | wordStart (ascii : Bool)
  | wordEnd (ascii : Bool)
  | wordStartHalf (ascii : Bool)
  | wordEndHalf (ascii : Bool)
deriving DecidableEq, Repr

inductive Regex where
  | empty
  | set (set : CharSet)
  | look (look : Look)
  | sequence (first second : Regex)
  | choice (left right : Regex)
  /-- At least the least count and, where there is one, at most the greatest. -/
  | repeated (inner : Regex) (least : Nat) (greatest : Option Nat)
deriving DecidableEq, Repr

namespace Look

def isWord (ascii : Bool) : Option Char → Bool
  | none => false
  | some character =>
      if ascii then character.isAlphanum || character = '_' else CharProperty.word.holds character

def holds (look : Look) (before after : Option Char) : Bool :=
  match look with
  | .textStart => before.isNone
  | .textEnd => after.isNone
  | .lineStart => before.isNone || before = some '\n'
  | .lineEnd => after.isNone || after = some '\n'
  | .anyLineStart =>
      before.isNone || before = some '\n' || (before = some '\r' && after ≠ some '\n')
  | .anyLineEnd =>
      after.isNone || after = some '\r' || (after = some '\n' && before ≠ some '\r')
  | .wordBoundary ascii => isWord ascii before ≠ isWord ascii after
  | .noWordBoundary ascii => isWord ascii before = isWord ascii after
  | .wordStart ascii => !isWord ascii before && isWord ascii after
  | .wordEnd ascii => isWord ascii before && !isWord ascii after
  | .wordStartHalf ascii => !isWord ascii before
  | .wordEndHalf ascii => !isWord ascii after

end Look

namespace Regex

def characterBefore (text : Array Char) (position : Nat) : Option Char :=
  match position with
  | 0 => none
  | previous + 1 => text[previous]?

/-- Sets of positions are increasing lists. -/
def insertPosition (position : Nat) : List Nat → List Nat
  | [] => [position]
  | first :: rest =>
      if position < first then position :: first :: rest
      else if position = first then first :: rest
      else first :: insertPosition position rest

def joinPositions (added known : List Nat) : List Nat := added.foldr insertPosition known

def iterate (step : List Nat → List Nat) : Nat → List Nat → List Nat
  | 0, positions => positions
  | count + 1, positions =>
      if positions.isEmpty then [] else iterate step count (step positions)

def iterateUpTo (step : List Nat → List Nat) : Nat → List Nat → List Nat
  | 0, positions => positions
  | count + 1, positions =>
      if positions.isEmpty then []
      else joinPositions positions (iterateUpTo step count (step positions))

/-- What any number of steps lead to. As steps never lead back, the positions can be dealt with
from the first one on; the bound is their number. -/
def closure (step : List Nat → List Nat) : Nat → List Nat → List Nat
  | 0, _ => []
  | _ + 1, [] => []
  | bound + 1, position :: rest =>
      let reached := (step [position]).filter fun next => position < next
      position :: closure step bound (joinPositions reached rest)

/-- The positions at which matches that start at one of the positions end. More steps of a
repetition than the text has positions lead nowhere new. -/
def ends (text : Array Char) : Regex → List Nat → List Nat
  | .empty, positions => positions
  | .set members, positions =>
      positions.filterMap fun position =>
        match text[position]? with
        | some character => if members.contains character then some (position + 1) else none
        | none => none
  | .look condition, positions =>
      positions.filter fun position =>
        condition.holds (characterBefore text position) text[position]?
  | .sequence first second, positions => ends text second (ends text first positions)
  | .choice left right, positions =>
      joinPositions (ends text left positions) (ends text right positions)
  | .repeated inner least greatest, positions =>
      let required := iterate (ends text inner) least positions
      match greatest with
      | some greatest =>
          iterateUpTo (ends text inner) (min (greatest - least) (text.size + 1)) required
      | none => closure (ends text inner) (text.size + 1) required

def matchesPart (regex : Regex) (text : String) : Bool :=
  let characters := text.toList.toArray
  !(ends characters regex (List.range (characters.size + 1))).isEmpty

end Regex

end SyntaxGraph
