import SyntaxGraph.Converter
import SyntaxGraph.Document.Predicate

/-!
Checking written converters. The two macro forms stand for a node converter followed by a
connection converter, which share the predicates.
-/

set_option autoImplicit false

namespace SyntaxGraph

def checkEdge (name : Option String) (fallback : EdgeType) : Except EntryFault EdgeType :=
  match name with
  | none => .ok fallback
  | some text =>
      match EdgeType.parse? text with
      | some type => .ok type
      | none => .error (.edgeType text)

def checkFields : List (String × String) → Except EntryFault (List (String × Expression))
  | [] => .ok []
  | (name, source) :: rest => do
      let expression ← checkExpression source
      return (name, expression) :: (← checkFields rest)

namespace ConverterDraft

def checkPredicates (engine : RegexEngine) (predicates : List PredicateDraft) :
    Except EntryFault (List Predicate) :=
  predicates.mapM (PredicateDraft.check engine)

def checkNode (name kind : String) (capture : Option String) : Except EntryFault Action := do
  let nameExpression ← checkExpression name
  return .node nameExpression (← checkExpression kind) (capture.map baseCaptureName)

def checkConnection (source target : String) (edge : Option String) (fallback : EdgeType)
    (sourceKind targetKind position : Option String) : Except EntryFault Action := do
  let sourceExpression ← checkExpression source
  let targetExpression ← checkExpression target
  let type ← checkEdge edge fallback
  let sourceKindExpression ← checkOptional sourceKind
  return .connection sourceExpression targetExpression type sourceKindExpression
    (← checkOptional targetKind) (position.map baseCaptureName)

def check (engine : RegexEngine) : ConverterDraft → Except EntryFault (List Converter)
  | .node name kind capture predicates => do
      let action ← checkNode name kind capture
      return [⟨action, ← checkPredicates engine predicates⟩]
  | .connection source target edge sourceKind targetKind position predicates => do
      let action ← checkConnection source target edge .uses sourceKind targetKind position
      return [⟨action, ← checkPredicates engine predicates⟩]
  | .validateIdentifier identifier predicates => do
      let expression ← checkExpression identifier
      return [⟨.validateIdentifier expression, ← checkPredicates engine predicates⟩]
  | .recordImport fields predicates => do
      if fields.isEmpty then
        throw .noImportFields
      let expressions ← checkFields fields.entries
      return [⟨.recordImport (StringMap.ofList expressions), ← checkPredicates engine predicates⟩]
  | .nodeWithParent name kind capture edge predicates => do
      let gates ← checkPredicates engine predicates
      let definition ← checkNode name kind capture
      let link ← checkConnection "@parent" name edge .defines none (some kind) none
      return [⟨definition, gates⟩, ⟨link, gates⟩]
  | .argumentConnection name kind target targetKind edge predicates => do
      let gates ← checkPredicates engine predicates
      let definition ← checkNode name kind none
      let link ← checkConnection name target edge .uses (some kind) targetKind none
      return [⟨definition, gates⟩, ⟨link, gates⟩]

end ConverterDraft

end SyntaxGraph
