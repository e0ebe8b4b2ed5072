import SyntaxGraph.Document.Load
import SyntaxGraph.Path
import SyntaxGraph.Toml.Parser

/-!
The two formats of pattern documents. A type of a tagged record may be given by its position in
JSON texts only.
-/

set_option autoImplicit false

namespace SyntaxGraph

inductive DocumentFormat where
  | json
  | toml
deriving DecidableEq, Repr, Inhabited

namespace DocumentFormat

def ofPath? (path : String) : Option DocumentFormat :=
  match Path.extension? path with
  | some "json" => some .json
  | some "toml" => some .toml
  | _ => none

def parse? (source : String) : DocumentFormat → Option DocumentDraft
  | .json => readDocumentText (DocumentDraft.ofJson? .always) source
  | .toml => (Toml.parse? source).bind (DocumentDraft.ofJson? .never)

end DocumentFormat

inductive DocumentError where
  /-- There is no file at the path, or its content is not a text. -/
  | unreadableFile (path : String)
  | unsupportedFormat (path : String)
  | malformed (format : DocumentFormat)
  | invalidEntry (error : EntryError)
deriving DecidableEq, Repr

namespace PatternSet

def parse (engine : RegexEngine) (format : DocumentFormat) (source : String) :
    Except DocumentError PatternSet :=
  match format.parse? source with
  | none => .error (.malformed format)
  | some draft =>
      match ofDrafts engine draft.entries with
      | .ok set => .ok set
      | .error error => .error (.invalidEntry error)

end PatternSet

end SyntaxGraph
