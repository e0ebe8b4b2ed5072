import SyntaxGraph.Json.Value

/-!
Records read from JSON: an object with known member names, each at most once, or an array of the
values in declared order, of which the last ones may be missing.
-/

set_option autoImplicit false

namespace SyntaxGraph

namespace Json

inductive PositionalForm where
  | refused
  /-- Values may be missing at the end. -/
  | partly
  /-- Values may be missing at the end, and surplus values are passed over. -/
  | leading
  | complete
deriving DecidableEq, Repr

/-- How strictly a record is read. In a closed one, a member that is not declared is an error. -/
structure RecordForm where
  closed : Bool
  positional : PositionalForm
deriving DecidableEq, Repr

def PositionalForm.admits (form : PositionalForm) (fields values : Nat) : Bool :=
  match form with
  | .refused => false
  | .partly => values ≤ fields
  | .leading => true
  | .complete => values = fields

/-- The value of the only member with one of the spellings; two such members are an error. -/
def onlyMember (members : List (String × Json)) (spellings : List String) : Option (Option Json) :=
  match members.filter fun entry => spellings.contains entry.1 with
  | [] => some none
  | [entry] => some (some entry.2)
  | _ => none

def fields? (form : RecordForm) (names : List (List String)) : Json → Option (List (Option Json))
  | object members =>
      if form.closed && members.any fun entry => !names.any (·.contains entry.1) then none
      else names.mapM (onlyMember members)
  | array items =>
      if form.positional.admits names.length items.length then
        some ((items.take names.length).map some ++
          List.replicate (names.length - items.length) none)
      else none
  | _ => none

def listOf? {Value : Type} (read : Json → Option Value) (value : Json) : Option (List Value) := do
  (← value.items?).mapM read

def fieldD {Value : Type} (read : Json → Option Value) (fallback : Value) :
    Option Json → Option Value
  | none => some fallback
  | some value => read value

def optionalField? {Value : Type} (read : Json → Option Value) :
    Option Json → Option (Option Value)
  | none | some null => some none
  | some value => (read value).map some

end Json

end SyntaxGraph
