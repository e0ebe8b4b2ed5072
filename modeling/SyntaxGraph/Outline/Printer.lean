import SyntaxGraph.Outline.Basic

/-!
Writing outline notation. Texts are always written, quoted, with a backslash before every quote
and backslash; siblings are separated by a comma and a space.
-/

set_option autoImplicit false

namespace SyntaxGraph

namespace Outline

def escapeText (text : List Char) : List Char :=
  text.flatMap fun character =>
    if character = '"' || character = '\\' then ['\\', character] else [character]

def ruleChars (rule : String) : List Char :=
  if rule.isEmpty then ['_'] else rule.toList

def chars : Outline → List Char
  | .node rule text children =>
      let written :=
        match text with
        | some text => '=' :: '"' :: (escapeText text.toList ++ ['"'])
        | none => []
      let nested :=
        match children with
        | [] => []
        | children => '(' :: ([',', ' '].intercalate (children.map chars) ++ [')'])
      ruleChars rule ++ written ++ nested

def render (outline : Outline) : String := String.ofList outline.chars

end Outline

end SyntaxGraph
