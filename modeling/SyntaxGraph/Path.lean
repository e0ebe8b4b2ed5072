/-!
File paths as texts with slashes. Two spellings are one path when their components agree:
repeated and trailing slashes and inner dots do not count, a leading dot does.
-/

set_option autoImplicit false

namespace SyntaxGraph

namespace Path

inductive Component where
  | root
  | here
  | up
  | name (text : String)
deriving DecidableEq, Repr

namespace Component

/-- Roots come first, then the leading dot, then double dots, then names. -/
def rank : Component → Nat
  | .root => 0
  | .here => 1
  | .up => 2
  | .name _ => 3

def before : Component → Component → Bool
  | .name left, .name right => left < right
  | left, right => left.rank < right.rank

def text : Component → String
  | .root => "/"
  | .here => "."
  | .up => ".."
  | .name text => text

end Component

def segments : List Char → List (List Char)
  | [] => [[]]
  | character :: rest =>
      match segments rest with
      | [] => [[]]
      | first :: others =>
          if character = '/' then [] :: first :: others else (character :: first) :: others

def isAbsolute (path : String) : Bool := path.toList.head? = some '/'

def componentOf (segment : List Char) : Option Component :=
  if segment = [] || segment = ['.'] then none
  else if segment = ['.', '.'] then some .up
  else some (.name (String.ofList segment))

def components (path : String) : List Component :=
  let parts := segments path.toList
  let leading :=
    if isAbsolute path then [Component.root]
    else if parts.head? = some ['.'] then [Component.here]
    else []
  leading ++ parts.filterMap componentOf

/-- Equality of paths, whatever their spelling. -/
def same (left right : String) : Bool := components left = components right

def componentsBefore : List Component → List Component → Bool
  | _, [] => false
  | [], _ :: _ => true
  | left :: lefts, right :: rights =>
      left.before right || (left = right && componentsBefore lefts rights)

def before (left right : String) : Bool := componentsBefore (components left) (components right)

def dropRepeats : List String → List String
  | [] => []
  | path :: rest =>
      match dropRepeats rest with
      | [] => [path]
      | next :: others => if same path next then path :: others else path :: next :: others

/-- Paths in their order, each once; the first of several spellings stays. -/
def sortUnique (paths : List String) : List String :=
  dropRepeats (paths.mergeSort fun left right => !before right left)

def join (base path : String) : String :=
  if isAbsolute path then path
  else if base.isEmpty || base.toList.getLast? = some '/' then base ++ path
  else base ++ "/" ++ path

def fileName? (path : String) : Option String :=
  match (components path).getLast? with
  | some (.name text) => some text
  | _ => none

def extension? (path : String) : Option String := do
  let reversed := (← fileName? path).toList.reverse
  let after := reversed.takeWhile (· ≠ '.')
  match reversed.dropWhile (· ≠ '.') with
  | _ :: _ :: _ => some (String.ofList after.reverse)
  | _ => none

end Path

end SyntaxGraph
