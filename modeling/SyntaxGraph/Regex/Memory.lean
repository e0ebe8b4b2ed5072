import SyntaxGraph.Regex.Basic

/-!
How much memory an expression takes as an automaton over bytes. Repetitions are written out, so that
counted ones multiply. The figure is close for single characters, for ASCII classes and for large
classes of characters beyond ASCII, which are estimated from the number of their runs.
-/

set_option autoImplicit false

namespace SyntaxGraph

namespace CharProperty

def categoryRuns (accepts : Text.Category → Bool) : Nat :=
  let runs := (Text.categoryTable.map fun run => accepts run.1).splitBy (· == ·)
  (runs.filter fun run => run.head? = some true).length

def runs : CharProperty → Nat
  | .any | .ascii => 1
  | .whiteSpace => 10
  | .assigned => categoryRuns fun category => category ≠ ⟨'C', 'n'⟩
  | .alphabetic =>
      categoryRuns fun category => ['L', 'M'].contains category.major || category = ⟨'N', 'l'⟩
  | .word =>
      categoryRuns fun category =>
        ['L', 'M'].contains category.major ||
          [⟨'N', 'd'⟩, ⟨'N', 'l'⟩, ⟨'P', 'c'⟩].contains category
  | .decimalDigit => categoryRuns fun category => category = ⟨'N', 'd'⟩
  | .casedLetter =>
      categoryRuns fun category => [⟨'L', 'u'⟩, ⟨'L', 'l'⟩, ⟨'L', 't'⟩].contains category
  | .major letter => categoryRuns fun category => category.major = letter
  | .category wanted => categoryRuns fun category => category = wanted

end CharProperty

namespace CharSet

def isAscii : CharSet → Bool
  | .empty => true
  | .range _ last => last < 128
  | .property named => named = .ascii
  | .union left right => left.isAscii && right.isAscii
  | .intersection left right => left.isAscii || right.isAscii
  | .complement _ => false
  | .folded set => set.isAscii
  | .foldedAscii set => set.isAscii

def runs : CharSet → Nat
  | .empty => 0
  | .range _ _ => 1
  | .property named => named.runs
  | .union left right => left.runs + right.runs
  | .intersection left right => max left.runs right.runs
  | .complement set => set.runs + 1
  | .folded set => 2 * set.runs
  | .foldedAscii set => 2 * set.runs

end CharSet

namespace Regex

def stateMemory : Nat := 32

def forkMemory : Nat := stateMemory + 8

/-- Bytes of the states between the first byte of a character and the last. A set that reaches the
last code point needs a path for every length of the encoding. -/
def setMemory (set : CharSet) : Nat :=
  match set with
  | .range first last =>
      if first = last then stateMemory * (Char.ofNat first).utf8Size else classMemory
  | _ => classMemory
where
  classMemory : Nat :=
    if set.isAscii then 2 * stateMemory + 8 * set.runs
    else 2 * stateMemory + 60 * set.runs + if set.contains (Char.ofNat 0x10FFFF) then 900 else 0

def isZeroWidth : Regex → Bool
  | .empty | .look _ => true
  | .set _ => false
  | .sequence first second => first.isZeroWidth && second.isZeroWidth
  | .choice left right => left.isZeroWidth && right.isZeroWidth
  | .repeated inner _ greatest => inner.isZeroWidth || greatest = some 0

/-- Bytes of all states. What matches positions only is not repeated more than once. -/
def memory : Regex → Nat
  | .empty => 0
  | .set members => setMemory members
  | .look _ => stateMemory
  | .sequence first second => first.memory + second.memory
  | .choice left right => left.memory + right.memory + 4
  | .repeated inner least greatest =>
      let copies (count : Nat) : Nat := if inner.isZeroWidth then min count 1 else count
      match greatest with
      | none => copies (max least 1) * inner.memory + forkMemory
      | some greatest =>
          copies greatest * inner.memory + (copies greatest - copies least) * forkMemory

/-- The most bytes that an automaton may take. -/
def memoryLimit : Nat := 10 * 1024 * 1024

end Regex

end SyntaxGraph
