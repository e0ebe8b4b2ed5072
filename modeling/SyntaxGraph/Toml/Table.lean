import SyntaxGraph.Json.Value

/-!
Tables of a TOML document while it is read. A table comes from a header, from a dotted key, or
from being on the way to one of those; which of these it is decides how it may still be extended.
-/

set_option autoImplicit false

namespace SyntaxGraph

namespace Toml

/-- A table is implicit as long as no header names it, and dotted if a dotted key made it. -/
structure TableKind where
  implicit : Bool
  dotted : Bool
deriving DecidableEq, Repr

def TableKind.headed : TableKind := ⟨false, false⟩

inductive Item where
  | value (value : Json)
  | table (kind : TableKind) (members : List (String × Item))
  | tables (elements : List (List (String × Item)))
deriving Inhabited

abbrev Members := List (String × Item)

def findMember (members : Members) (key : String) : Option Item :=
  (members.find? fun entry => entry.1 = key).map (·.2)

def putMember (members : Members) (key : String) (item : Item) : Members :=
  if members.any fun entry => entry.1 = key then
    members.map fun entry => if entry.1 = key then (key, item) else entry
  else members ++ [(key, item)]

def removeMember (members : Members) (key : String) : Members :=
  members.filter fun entry => entry.1 ≠ key

/-- Changes the table at the end of a path. Tables that are missing on the way are made; of an
array of tables the last one is entered. A dotted path does not enter tables with a header. -/
def changeAt (dotted : Bool) (change : TableKind → Members → Option Members) :
    List String → TableKind → Members → Option Members
  | [], kind, members => change kind members
  | key :: path, _, members =>
      match findMember members key with
      | none => do
          let kind : TableKind := ⟨true, dotted⟩
          return putMember members key (.table kind (← changeAt dotted change path kind []))
      | some (.value _) => none
      | some (.tables elements) => do
          let last ← changeAt dotted change path .headed (elements.getLast?.getD [])
          return putMember members key (.tables (elements.dropLast ++ [last]))
      | some (.table kind inner) =>
          if dotted && !kind.implicit then none
          else do
            return putMember members key (.table kind (← changeAt dotted change path kind inner))

/-- Adds a value under a dotted key. It must not be there yet, and a dotted key does not reach
into a table that is there for another reason. -/
def addValue (key : List String) (item : Item) (kind : TableKind) (members : Members) :
    Option Members :=
  let path := key.dropLast
  changeAt true (fun kind members =>
    match key.getLast? with
    | none => none
    | some last =>
        if kind.dotted = path.isEmpty || (findMember members last).isSome then none
        else some (putMember members last item)) path kind members

mutual

def Item.toJson : Item → Json
  | .value value => value
  | .table _ members => .object (membersToJson members)
  | .tables elements => .array (elementsToJson elements)

def membersToJson : List (String × Item) → List (String × Json)
  | [] => []
  | (key, item) :: rest => (key, Item.toJson item) :: membersToJson rest

def elementsToJson : List (List (String × Item)) → List Json
  | [] => []
  | members :: rest => .object (membersToJson members) :: elementsToJson rest

end

/-- A document under construction: everything before the current header, and the table of that
header with its path. -/
structure Draft where
  root : Members
  current : Members
  path : List String
  isElement : Bool
deriving Inhabited

def Draft.start : Draft := ⟨[], [], [], false⟩

namespace Draft

def close (draft : Draft) : Option Members :=
  match draft.path.getLast? with
  | none => some draft.current
  | some last =>
      changeAt false (fun _ members =>
        match findMember members last, draft.isElement with
        | none, true => some (putMember members last (.tables [draft.current]))
        | some (.tables elements), true =>
            some (putMember members last (.tables (elements ++ [draft.current])))
        | none, false => some (putMember members last (.table .headed draft.current))
        | _, _ => none) draft.path.dropLast .headed draft.root

/-- Begins the table of a header. It may have been implicit so far, but not dotted. -/
def openTable (draft : Draft) (path : List String) : Option Draft := do
  let root ← draft.close
  let last ← path.getLast?
  let parent := path.dropLast
  let present ← memberAt parent root
  match findMember present last with
  | none => return ⟨← changeAt false (fun _ members => some members) parent .headed root, [], path, false⟩
  | some (.table kind members) =>
      if kind.implicit && !kind.dotted then
        let cleared ← changeAt false (fun _ members => some (removeMember members last)) parent
          .headed root
        return ⟨cleared, members, path, false⟩
      else none
  | _ => none
where
  /-- The members of the table at a path, none if it is missing. -/
  memberAt : List String → Members → Option Members
    | [], members => some members
    | key :: path, members =>
        match findMember members key with
        | none => some []
        | some (.value _) => none
        | some (.tables elements) => memberAt path (elements.getLast?.getD [])
        | some (.table _ inner) => memberAt path inner

def openElement (draft : Draft) (path : List String) : Option Draft := do
  let root ← draft.close
  let last ← path.getLast?
  let checked ← changeAt false (fun _ members =>
    match findMember members last with
    | none => some (putMember members last (.tables []))
    | some (.tables _) => some members
    | _ => none) path.dropLast .headed root
  return ⟨checked, [], path, true⟩

def add (draft : Draft) (key : List String) (value : Json) : Option Draft := do
  return { draft with current := ← addValue key (.value value) .headed draft.current }

end Draft

end Toml

end SyntaxGraph
