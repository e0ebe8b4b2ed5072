import SyntaxGraph.Document.Draft
import SyntaxGraph.Json.Value

/-!
Writing drafts back as JSON values. Patterns and entries are written with all their fields;
converters leave out what is absent, and their predicates where there are none.
-/

set_option autoImplicit false

namespace SyntaxGraph

namespace PatternDraft

mutual

def toJson : PatternDraft → Json
  | .node rule captures children forbidden optional =>
      .object
        [("rule", .string rule), ("captures", .strings captures),
         ("children", .array (allToJson children)), ("not_children", .strings forbidden),
         ("optional", .bool optional)]
  | .alternatives options optional =>
      .object [("alternatives", .array (allToJson options)), ("optional", .bool optional)]

def allToJson : List PatternDraft → List Json
  | [] => []
  | pattern :: rest => toJson pattern :: allToJson rest

end

end PatternDraft

def tagged (type : String) (fields : List (String × Json)) : Json :=
  .object (("type", .string type) :: fields)

namespace PredicateDraft

def typeName (negated : Bool) (type : String) : String := if negated then "not_" ++ type else type

def toJson : PredicateDraft → Json
  | .equals negated left right =>
      tagged (typeName negated "equals") [("left", .string left), ("right", .string right)]
  | .endsWith negated value suffix =>
      tagged (typeName negated "ends_with") [("value", .string value), ("suffix", .string suffix)]
  | .contains negated value part =>
      tagged (typeName negated "contains") [("value", .string value), ("substring", .string part)]
  | .fullMatch negated value regex =>
      tagged (typeName negated "full_match") [("value", .string value), ("regex", .string regex)]
  | .anyOf value options =>
      tagged "any_of" [("value", .string value), ("options", .strings options)]
  | .isBound negated capture => tagged (typeName negated "exists") [("capture", .string capture)]
  | .not predicate => tagged "not" [("predicate", toJson predicate)]

end PredicateDraft

namespace ConverterDraft

def optionalMember (name : String) : Option String → List (String × Json)
  | none => []
  | some text => [(name, .string text)]

def predicatesMember : List PredicateDraft → List (String × Json)
  | [] => []
  | predicates => [("predicates", .array (predicates.map PredicateDraft.toJson))]

def toJson : ConverterDraft → Json
  | .node name kind capture predicates =>
      tagged "node"
        ([("name", .string name), ("kind", .string kind)] ++
          optionalMember "syntax_node" capture ++ predicatesMember predicates)
  | .connection source target edge sourceKind targetKind position predicates =>
      tagged "connection"
        ([("from", .string source), ("to", .string target)] ++ optionalMember "edge" edge ++
          optionalMember "from_kind" sourceKind ++ optionalMember "to_kind" targetKind ++
          optionalMember "position" position ++ predicatesMember predicates)
  | .validateIdentifier identifier predicates =>
      tagged "validate_identifier"
        (("identifier", .string identifier) :: predicatesMember predicates)
  | .recordImport fields predicates =>
      tagged "import"
        (("fields", .object (fields.entries.map fun (name, text) => (name, .string text))) ::
          predicatesMember predicates)
  | .nodeWithParent name kind capture edge predicates =>
      tagged "node_with_parent"
        ([("name", .string name), ("kind", .string kind)] ++
          optionalMember "syntax_node" capture ++ optionalMember "edge" edge ++
          predicatesMember predicates)
  | .argumentConnection name kind target targetKind edge predicates =>
      tagged "argument_connection"
        ([("name", .string name), ("kind", .string kind), ("target", .string target)] ++
          optionalMember "target_kind" targetKind ++ optionalMember "edge" edge ++
          predicatesMember predicates)

end ConverterDraft

def EntryDraft.toJson (entry : EntryDraft) : Json :=
  .object
    [("pattern", entry.pattern.toJson),
     ("predicates", .array (entry.predicates.map PredicateDraft.toJson)),
     ("converters", .array (entry.converters.map ConverterDraft.toJson))]

def DocumentDraft.toJson : DocumentDraft → Json
  | .list entries => .array (entries.map EntryDraft.toJson)
  | .table entries => .object [("patterns", .array (entries.map EntryDraft.toJson))]

end SyntaxGraph
