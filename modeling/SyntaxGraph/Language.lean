import SyntaxGraph.Path
import SyntaxGraph.Text.WhiteSpace

/-!
Languages with a grammar, found by name or by file extension. Case is ignored for ASCII letters.
-/

set_option autoImplicit false

namespace SyntaxGraph

inductive Language where
  | python
  | rust
deriving DecidableEq, Repr, Inhabited

namespace Language

def all : List Language := [.python, .rust]

def name : Language → String
  | .python => "python"
  | .rust => "rust"

def extensions : Language → List String
  | .python => ["py", "pyi"]
  | .rust => ["rs"]

def lowerAscii (text : String) : String := text.map Char.toLower

def ofExtension? (extension : String) : Option Language :=
  all.find? fun language => language.extensions.contains (lowerAscii extension)

def ofName? (text : String) : Option Language :=
  let wanted := Text.trim text
  (all.find? fun language => language.name = lowerAscii wanted) <|> ofExtension? wanted

def ofPath? (path : String) : Option Language := (Path.extension? path).bind ofExtension?

end Language

structure UnsupportedLanguage where
  path : String
deriving DecidableEq, Repr

def UnsupportedLanguage.message (error : UnsupportedLanguage) : String :=
  "no grammar for " ++ error.path

def Language.forPath (path : String) : Except UnsupportedLanguage Language :=
  match ofPath? path with
  | some language => .ok language
  | none => .error ⟨path⟩

end SyntaxGraph
