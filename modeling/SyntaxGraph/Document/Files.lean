import SyntaxGraph.Document.Format
import SyntaxGraph.Files.System

/-!
Pattern documents in files. A file is read before its format is looked at.
-/

set_option autoImplicit false

namespace SyntaxGraph.PatternSet

def ofPath (engine : RegexEngine) (files : FileSystem) (path : String) :
    Except DocumentError PatternSet :=
  match files.readText? path with
  | none => .error (.unreadableFile path)
  | some source =>
      match DocumentFormat.ofPath? path with
      | none => .error (.unsupportedFormat path)
      | some format => parse engine format source

def ofPaths (engine : RegexEngine) (files : FileSystem) :
    List String → Except DocumentError PatternSet
  | [] => .ok []
  | path :: rest => do
      let first ← ofPath engine files path
      return first ++ (← ofPaths engine files rest)

end SyntaxGraph.PatternSet
