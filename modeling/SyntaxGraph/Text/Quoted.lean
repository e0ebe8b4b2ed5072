import SyntaxGraph.Text.Category

/-!
Texts between double quotes, in which everything that would not show up as itself is escaped:
control characters, separators other than the space, unassigned characters, and the marks that
attach to the character before them.
-/

set_option autoImplicit false

namespace SyntaxGraph.Text

/-- The characters of the property Grapheme_Extend that are no nonspacing or enclosing marks. -/
def otherGraphemeExtend : List (Nat × Nat) :=
  [(0x9BE, 0x9BE), (0x9D7, 0x9D7), (0xB3E, 0xB3E), (0xB57, 0xB57), (0xBBE, 0xBBE), (0xBD7, 0xBD7),
   (0xCC0, 0xCC0), (0xCC2, 0xCC2), (0xCC7, 0xCC8), (0xCCA, 0xCCB), (0xCD5, 0xCD6), (0xD3E, 0xD3E),
   (0xD57, 0xD57), (0xDCF, 0xDCF), (0xDDF, 0xDDF), (0x1715, 0x1715), (0x1734, 0x1734),
   (0x1B35, 0x1B35), (0x1B3B, 0x1B3B), (0x1B3D, 0x1B3D), (0x1B43, 0x1B44), (0x1BAA, 0x1BAA),
   (0x1BF2, 0x1BF3), (0x200C, 0x200C), (0x302E, 0x302F), (0xA953, 0xA953), (0xA9C0, 0xA9C0),
   (0xFF9E, 0xFF9F), (0x111C0, 0x111C0), (0x11235, 0x11235), (0x1133E, 0x1133E),
   (0x1134D, 0x1134D), (0x11357, 0x11357), (0x113B8, 0x113B8), (0x113C2, 0x113C2),
   (0x113C5, 0x113C5), (0x113C7, 0x113C9), (0x113CF, 0x113CF), (0x114B0, 0x114B0),
   (0x114BD, 0x114BD), (0x115AF, 0x115AF), (0x116B6, 0x116B6), (0x11930, 0x11930),
   (0x1193D, 0x1193D), (0x16FF0, 0x16FF1), (0x1D165, 0x1D166), (0x1D16D, 0x1D172),
   (0xE0020, 0xE007F)]

def extendsGrapheme (character : Char) : Bool :=
  let category := category character
  category = ⟨'M', 'n'⟩ || category = ⟨'M', 'e'⟩ || inRanges otherGraphemeExtend character

def isVisible (character : Char) : Bool :=
  let category := category character
  character = ' ' || (category.major ≠ 'C' && category.major ≠ 'Z')

def isPlain (character : Char) : Bool :=
  if character.val < 0x7f then 0x20 ≤ character.val
  else isVisible character && !extendsGrapheme character

inductive QuoteEscapes where
  | double
  | both
deriving DecidableEq, Repr

def codeEscape (character : Char) : List Char :=
  ['\\', 'u', '\x7b'] ++ Nat.toDigits 16 character.toNat ++ ['\x7d']

def escape (escapes : QuoteEscapes) (character : Char) : List Char :=
  if character = '\x00' then ['\\', '0']
  else if character = '\t' then ['\\', 't']
  else if character = '\r' then ['\\', 'r']
  else if character = '\n' then ['\\', 'n']
  else if character = '\\' || character = '"' then ['\\', character]
  else if character = '\'' && escapes = .both then ['\\', character]
  else if isPlain character then [character]
  else codeEscape character

def quoted (escapes : QuoteEscapes) (text : String) : String :=
  String.ofList ('"' :: (text.toList.flatMap (escape escapes) ++ ['"']))

end SyntaxGraph.Text
