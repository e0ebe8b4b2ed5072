import SyntaxGraph.Text.LetterCase
import SyntaxGraph.Text.WhiteSpace

/-!
Kinds of entities and types of edges, with their names. Names are read without regard to case
and to white space around them.
-/

set_option autoImplicit false

namespace SyntaxGraph

inductive EntityKind where
  | function
  | classKind
  | package
  | property
  | alias
  | object
deriving DecidableEq, Repr, Inhabited

inductive EdgeType where
  /-- A container defines a member. -/
  | defines
  /-- A class inherits from a supertype. -/
  | inherits
  | uses
  | calls
  | imports
  /-- Structural containment. -/
  | contains
deriving DecidableEq, Repr, Inhabited

def ofName? {Value : Type} (values : List Value) (name : Value → String) (text : String) :
    Option Value :=
  values.find? fun value => name value = Text.lowerName (Text.trim text)

namespace EntityKind

def all : List EntityKind := [.function, .classKind, .package, .property, .alias, .object]

def name : EntityKind → String
  | .function => "function"
  | .classKind => "class"
  | .package => "package"
  | .property => "property"
  | .alias => "alias"
  | .object => "object"

def parse? (text : String) : Option EntityKind := ofName? all name text

def ofExactName? (text : String) : Option EntityKind := all.find? fun kind => kind.name = text

end EntityKind

namespace EdgeType

def all : List EdgeType := [.defines, .inherits, .uses, .calls, .imports, .contains]

def name : EdgeType → String
  | .defines => "DEFINES"
  | .inherits => "INHERITS"
  | .uses => "USES"
  | .calls => "CALLS"
  | .imports => "IMPORTS"
  | .contains => "CONTAINS"

def parse? (text : String) : Option EdgeType :=
  ofName? all (fun type => Text.lowerName type.name) text

def ofExactName? (text : String) : Option EdgeType := all.find? fun type => type.name = text

end EdgeType

inductive KindError where
  | entityKind (text : String)
  | edgeType (text : String)
deriving DecidableEq, Repr

def KindError.message : KindError → String
  | .entityKind text => "unknown entity kind '" ++ text ++ "'"
  | .edgeType text => "unknown edge type '" ++ text ++ "'"

def EntityKind.parse (text : String) : Except KindError EntityKind :=
  match parse? text with
  | some kind => .ok kind
  | none => .error (.entityKind text)

def EdgeType.parse (text : String) : Except KindError EdgeType :=
  match parse? text with
  | some type => .ok type
  | none => .error (.edgeType text)

end SyntaxGraph
