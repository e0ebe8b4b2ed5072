import SyntaxGraph.Regex.Memory
import SyntaxGraph.Regex.Parser
import SyntaxGraph.RegexEngine

/-!
The meaning of written regular expressions: flags are applied from left to right up to the end of
the group that they stand in. Outside Unicode mode, classes are sets of bytes and may not go beyond
ASCII.

This is the engine that the program runs with. Of the named properties of characters it knows the
general categories and a few others, but neither scripts nor ages, so it refuses patterns with these;
and what it takes for too large is an estimate. Nothing else depends on which engine there is.
-/

set_option autoImplicit false

namespace SyntaxGraph

namespace Regex

structure Flags where
  ignoreCase : Bool
  multiLine : Bool
  dotMatchesAll : Bool
  unicode : Bool
  anyLineEnd : Bool
deriving DecidableEq, Repr

def Flags.initial : Flags := ⟨false, false, false, true, false⟩

def Flags.change (flags : Flags) (change : FlagChange) : Flags :=
  match change.1 with
  | .ignoreCase => { flags with ignoreCase := change.2 }
  | .multiLine => { flags with multiLine := change.2 }
  | .dotMatchesAll => { flags with dotMatchesAll := change.2 }
  | .unicode => { flags with unicode := change.2 }
  | .anyLineEnd => { flags with anyLineEnd := change.2 }
  | .swapGreed | .ignoreSpace => flags

def Flags.changeAll (flags : Flags) (changes : List FlagChange) : Flags :=
  changes.foldl Flags.change flags

def asciiSpace : CharSet := .ofRanges [('\t', '\r'), (' ', ' ')]

def asciiWord : CharSet := .ofRanges [('0', '9'), ('A', 'Z'), ('a', 'z'), ('_', '_')]

def escapeSet (flags : Flags) (name : EscapeClass) (negated : Bool) : CharSet :=
  let set : CharSet := match name, flags.unicode with
    | .digit, true => .property .decimalDigit
    | .space, true => .property .whiteSpace
    | .word, true => .property .word
    | .digit, false => .ofRanges [('0', '9')]
    | .space, false => asciiSpace
    | .word, false => asciiWord
  if negated then .complement set else set

def foldCase (flags : Flags) (set : CharSet) : CharSet :=
  if !flags.ignoreCase then set
  else if flags.unicode then .folded set
  else .foldedAscii set

def foldAndNegate (flags : Flags) (negated : Bool) (set : CharSet) : CharSet :=
  if negated then .complement (foldCase flags set) else foldCase flags set

def isClassLiteral (flags : Flags) (literal : Literal) : Bool :=
  flags.unicode || literal.character.val < 128

/-- Outside Unicode mode, a set must not hold bytes beyond ASCII. -/
def checkedSet (flags : Flags) (set : CharSet) : Option CharSet :=
  if flags.unicode then some set
  else if set.exceedsAscii then none
  else some (.intersection (.range 0 127) set)

def classSet (flags : Flags) : ClassTree → Option CharSet
  | .empty => some .empty
  | .literal literal =>
      if isClassLiteral flags literal then some (.single literal.character) else none
  | .range first last =>
      if isClassLiteral flags first && isClassLiteral flags last then
        some (.range first.character.toNat last.character.toNat)
      else none
  | .escape name negated => checkedSet flags (escapeSet flags name negated)
  | .property name negated =>
      if flags.unicode then some (foldAndNegate flags negated (.property name)) else none
  | .ascii ranges negated => checkedSet flags (foldAndNegate flags negated (.ofRanges ranges))
  | .bracket inner negated => do
      checkedSet flags (foldAndNegate flags negated (← classSet flags inner))
  | .union left right => do return .union (← classSet flags left) (← classSet flags right)
  | .operation operator left right => do
      let leftSet := foldCase flags (← classSet flags left)
      let rightSet := foldCase flags (← classSet flags right)
      match operator with
      | .intersection => return .intersection leftSet rightSet
      | .difference => return .difference leftSet rightSet
      | .symmetricDifference => return .symmetricDifference leftSet rightSet

def literalRegex (flags : Flags) (literal : Literal) : Option Regex :=
  if !flags.unicode && literal.asByte && 128 ≤ literal.character.val then none
  else some (.set (foldCase flags (.single literal.character)))

def dotRegex (flags : Flags) : Option Regex :=
  if !flags.unicode then none
  else if flags.dotMatchesAll then some (.set (.property .any))
  else
    let lineEnds := if flags.anyLineEnd then [('\n', '\n'), ('\r', '\r')] else [('\n', '\n')]
    some (.set (.complement (.ofRanges lineEnds)))

def assertionLook (flags : Flags) : Assertion → Look
  | .lineStart =>
      if !flags.multiLine then .textStart
      else if flags.anyLineEnd then .anyLineStart
      else .lineStart
  | .lineEnd =>
      if !flags.multiLine then .textEnd
      else if flags.anyLineEnd then .anyLineEnd
      else .lineEnd
  | .textStart => .textStart
  | .textEnd => .textEnd
  | .wordBoundary => .wordBoundary !flags.unicode
  | .noWordBoundary => .noWordBoundary !flags.unicode
  | .wordStart => .wordStart !flags.unicode
  | .wordEnd => .wordEnd !flags.unicode
  | .wordStartHalf => .wordStartHalf !flags.unicode
  | .wordEndHalf => .wordEndHalf !flags.unicode

mutual

def compileTree (flags : Flags) : RegexTree → Option (Regex × Flags)
  | .empty => some (.empty, flags)
  | .flags changes => some (.empty, flags.changeAll changes)
  | .literal literal => (literalRegex flags literal).map (·, flags)
  | .dot => (dotRegex flags).map (·, flags)
  | .assertion assertion => some (.look (assertionLook flags assertion), flags)
  | .escape name negated => (checkedSet flags (escapeSet flags name negated)).map (.set ·, flags)
  | .property name negated =>
      if flags.unicode then some (.set (foldAndNegate flags negated (.property name)), flags)
      else none
  | .bracket inner negated => do
      let set ← checkedSet flags (foldAndNegate flags negated (← classSet flags inner))
      return (.set set, flags)
  | .repeated inner least greatest => do
      let (regex, next) ← compileTree flags inner
      return (.repeated regex least greatest, next)
  | .group changes inner => do
      let (regex, _) ← compileTree (flags.changeAll changes) inner
      return (regex, flags)
  | .sequence parts => compileSequence flags parts
  | .choice options => compileChoice flags options

def compileSequence (flags : Flags) : List RegexTree → Option (Regex × Flags)
  | [] => some (.empty, flags)
  | part :: rest => do
      let (first, between) ← compileTree flags part
      let (second, next) ← compileSequence between rest
      return (.sequence first second, next)

def compileChoice (flags : Flags) : List RegexTree → Option (Regex × Flags)
  | [] => some (.set .empty, flags)
  | option :: rest => do
      let (left, between) ← compileTree flags option
      let (right, next) ← compileChoice between rest
      return (.choice left right, next)

end

def parse? (pattern : String) : Option Regex := do
  let tree ← readTree pattern
  let (regex, _) ← compileTree .initial tree
  if memoryLimit < regex.memory then failure
  return regex

/-- The engine that the program runs with. -/
def engine : RegexEngine := fun pattern => (parse? pattern).map matchesPart

end Regex

end SyntaxGraph
