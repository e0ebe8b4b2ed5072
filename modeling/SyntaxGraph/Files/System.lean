import SyntaxGraph.Files.Tree
import SyntaxGraph.Path

/-!
A file tree seen from a current directory. A path is followed name by name, and everything that is
passed on the way has to be a directory, or a link to one.
-/

set_option autoImplicit false

namespace SyntaxGraph

structure FileSystem where
  top : FileTree
  /-- The place of the current directory. -/
  current : List String
deriving Inhabited

namespace FileSystem

def currentPath (files : FileSystem) : String := "/" ++ "/".intercalate files.current

def segmentsOf (path : String) : List String := (Path.segments path.toList).map String.ofList

def startFrom (directory : List String) (path : String) : List String :=
  if Path.isAbsolute path then [] else directory

def start (files : FileSystem) (path : String) : List String := startFrom files.current path

/-- What the segments of a path lead to: a place, or a link with segments still to be followed. -/
inductive Reached where
  | place (place : List String)
  | link (directory : List String) (target : String) (rest : List String)

def advance? (files : FileSystem) : List String → List String → Option Reached
  | place, [] => some (.place place)
  | place, segment :: rest =>
      match files.top.at? place with
      | some (.directory entries) =>
          if segment = "" || segment = "." then files.advance? place rest
          else if segment = ".." then files.advance? place.dropLast rest
          else
            match FileTree.entry? (.directory entries) segment with
            | none => none
            | some (.link target) => some (.link place target rest)
            | some _ => files.advance? (place ++ [segment]) rest
      | _ => none

def follow? (files : FileSystem) : Nat → List String → List String → Option (List String)
  | links, place, segments =>
      match files.advance? place segments, links with
      | some (.place reached), _ => some reached
      | some (.link directory target rest), links + 1 =>
          files.follow? links (startFrom directory target) (segmentsOf target ++ rest)
      | some (.link _ _ _), 0 | none, _ => none

/-- Links on the way of one path. -/
def maxLinks : Nat := 40

def locate? (files : FileSystem) (path : String) : Option (List String) :=
  if path.isEmpty then none else files.follow? maxLinks (files.start path) (segmentsOf path)

/-- The file or directory that a path leads to. -/
def find? (files : FileSystem) (path : String) : Option FileTree :=
  ((files.locate? path).bind files.top.at?).filter fun tree => tree.isFile || tree.isDirectory

def isFile (files : FileSystem) (path : String) : Bool :=
  (files.find? path).any FileTree.isFile

def isDirectory (files : FileSystem) (path : String) : Bool :=
  (files.find? path).any FileTree.isDirectory

def readText? (files : FileSystem) (path : String) : Option String := do
  String.fromUTF8? (← (← files.find? path).content?)

def parent? (files : FileSystem) (place segments : List String) :
    Option (List String × String) := do
  let name ← segments.getLast?
  let directory ← files.follow? maxLinks place segments.dropLast
  if ["", ".", ".."].contains name || !(← files.top.at? directory).isDirectory then none
  else some (directory, name)

/-- Writes a file into an existing directory, or where a link in its place leads. What is written to a
special entry is not kept. -/
def writeAt? (files : FileSystem) (content : ByteArray) :
    Nat → List String → List String → Option FileSystem
  | links, place, segments => do
      let (directory, name) ← files.parent? place segments
      match files.top.at? (directory ++ [name]), links with
      | some (.link target), links + 1 =>
          files.writeAt? content links (startFrom directory target) (segmentsOf target)
      | some (.link _), 0 | some (.directory _), _ => none
      | some .special, _ => some files
      | some (.file _), _ | none, _ =>
          some { files with top := files.top.put (.file content) (directory ++ [name]) }

def write? (files : FileSystem) (path : String) (content : ByteArray) : Option FileSystem :=
  files.writeAt? content maxLinks (files.start path) (segmentsOf path)

def install (files : FileSystem) (path : String) (content : ByteArray) : FileSystem :=
  { files with top := files.top.put (.file content) (files.start path ++ namesOf path) }
where
  namesOf (path : String) : List String :=
    (segmentsOf path).filter fun segment => segment ≠ "" && segment ≠ "."

def makeDirectory (files : FileSystem) (path : String) : FileSystem :=
  if files.isDirectory path then files
  else
    { files with
      top := files.top.put (.directory []) (files.start path ++ install.namesOf path) }

/-- Removes what is no directory. A link goes, and what it leads to stays. -/
def remove? (files : FileSystem) (path : String) : Option FileSystem := do
  let (directory, name) ← files.parent? (files.start path) (segmentsOf path)
  let tree ← files.top.at? (directory ++ [name])
  if tree.isDirectory then none else some { files with top := files.top.erase (directory ++ [name]) }

end FileSystem

end SyntaxGraph
