import SyntaxGraph.Files.System
import SyntaxGraph.Language

/-!
The source files that a list of paths stands for. A file that is named is kept as it is; below a
directory, hidden entries are passed over, and files have to be in a wanted language and small
enough. What is neither a file nor a directory is passed over, so that no link is followed.
-/

set_option autoImplicit false

namespace SyntaxGraph

structure SourceFilter where
  /-- The only language that is wanted, if there is one. -/
  language : Option Language
  maxBytes : Nat
deriving DecidableEq, Repr

def SourceFilter.accepts (filter : SourceFilter) (path : String) (content : ByteArray) : Bool :=
  let wanted := match filter.language, Language.ofPath? path with
    | none, found => found.isSome
    | some language, found => found = some language
  wanted && content.size ≤ filter.maxBytes

def isHidden (name : String) : Bool := name.toList.head? = some '.'

namespace FileTree

mutual

def filesBelow (path : String) : FileTree → List (String × ByteArray)
  | file content => [(path, content)]
  | directory entries => entriesBelow path entries
  | link _ | special => []

def entriesBelow (path : String) : List (String × FileTree) → List (String × ByteArray)
  | [] => []
  | (name, tree) :: rest =>
      (if isHidden name then [] else filesBelow (Path.join path name) tree) ++
        entriesBelow path rest

end

end FileTree

structure PathNotFound where
  path : String
deriving DecidableEq, Repr

namespace FileSystem

def sourcesAt (files : FileSystem) (filter : SourceFilter) (path : String) :
    Except PathNotFound (List String) :=
  match files.find? path with
  | none => .error ⟨path⟩
  | some (.file _) => .ok [path]
  | some tree =>
      let accepted := (tree.filesBelow path).filter fun (found, content) =>
        filter.accepts found content
      .ok (accepted.map (·.1))

def sources (files : FileSystem) (filter : SourceFilter) (paths : List String) :
    Except PathNotFound (List String) := do
  let found ← paths.mapM (files.sourcesAt filter)
  return Path.sortUnique found.flatten

end FileSystem

end SyntaxGraph
