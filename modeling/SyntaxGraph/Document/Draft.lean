import SyntaxGraph.StringMap

/-!
Pattern documents as they are written, before anything in them is checked: expressions are texts,
edge types are names, and the macro forms of converters stand for themselves.
-/

set_option autoImplicit false

namespace SyntaxGraph

inductive PatternDraft where
  | node (rule : String) (captures : List String) (children : List PatternDraft)
      (forbidden : List String) (optional : Bool)
  | alternatives (options : List PatternDraft) (optional : Bool)
deriving Repr, Inhabited

/-- Most predicates have a negated twin, which is written under a name of its own. -/
inductive PredicateDraft where
  | equals (negated : Bool) (left right : String)
  | endsWith (negated : Bool) (value suffix : String)
  | contains (negated : Bool) (value part : String)
  | fullMatch (negated : Bool) (value regex : String)
  | anyOf (value : String) (options : List String)
  | isBound (negated : Bool) (capture : String)
  | not (predicate : PredicateDraft)
deriving Repr, Inhabited, DecidableEq

inductive ConverterDraft where
  | node (name kind : String) (capture : Option String) (predicates : List PredicateDraft)
  | connection (source target : String) (edge sourceKind targetKind position : Option String)
      (predicates : List PredicateDraft)
  | validateIdentifier (identifier : String) (predicates : List PredicateDraft)
  | recordImport (fields : StringMap String) (predicates : List PredicateDraft)
  /-- A node, and an edge to it from the enclosing match. -/
  | nodeWithParent (name kind : String) (capture edge : Option String)
      (predicates : List PredicateDraft)
  /-- A node, and an edge from it to a target. -/
  | argumentConnection (name kind target : String) (targetKind edge : Option String)
      (predicates : List PredicateDraft)
deriving Inhabited

structure EntryDraft where
  pattern : PatternDraft
  predicates : List PredicateDraft
  converters : List ConverterDraft
deriving Inhabited

/-- A list of entries, or a table that holds the list under the name `patterns`. -/
inductive DocumentDraft where
  | list (entries : List EntryDraft)
  | table (entries : List EntryDraft)
deriving Inhabited

def DocumentDraft.entries : DocumentDraft → List EntryDraft
  | .list entries | .table entries => entries

end SyntaxGraph
