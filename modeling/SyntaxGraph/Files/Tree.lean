/-!
A tree of directories and what is in them. A place in it is the list of names that lead there from
the top; links are not followed on the way.
-/

set_option autoImplicit false

namespace SyntaxGraph

inductive FileTree where
  | file (content : ByteArray)
  | directory (entries : List (String × FileTree))
  /-- A symbolic link to a path. -/
  | link (target : String)
  /-- A device, a socket or the like. -/
  | special
deriving Inhabited

namespace FileTree

def entries : FileTree → List (String × FileTree)
  | directory entries => entries
  | file _ | link _ | special => []

def isDirectory : FileTree → Bool
  | directory _ => true
  | file _ | link _ | special => false

def isFile : FileTree → Bool
  | file _ => true
  | directory _ | link _ | special => false

def content? : FileTree → Option ByteArray
  | file content => some content
  | directory _ | link _ | special => none

def entry? (tree : FileTree) (name : String) : Option FileTree :=
  (tree.entries.find? fun entry => entry.1 = name).map (·.2)

def at? : FileTree → List String → Option FileTree
  | tree, [] => some tree
  | tree, name :: rest => (tree.entry? name).bind (·.at? rest)

def setEntry (name : String) (tree : FileTree) :
    List (String × FileTree) → List (String × FileTree)
  | [] => [(name, tree)]
  | (other, previous) :: rest =>
      if other = name then (name, tree) :: rest else (other, previous) :: setEntry name tree rest

def put : FileTree → FileTree → List String → FileTree
  | _, node, [] => node
  | tree, node, name :: rest =>
      let inner := put ((tree.entry? name).getD (directory [])) node rest
      directory (setEntry name inner tree.entries)

def erase : FileTree → List String → FileTree
  | tree, [] => tree
  | tree, [name] => directory (tree.entries.filter fun entry => entry.1 ≠ name)
  | tree, name :: rest =>
      match tree.entry? name with
      | some inner => directory (setEntry name (erase inner rest) tree.entries)
      | none => tree

end FileTree

end SyntaxGraph
