import SyntaxGraph.Engine.Search
import SyntaxGraph.Inspect.Expression

/-!
JSON views of checked pattern documents, for inspection.
-/

set_option autoImplicit false

namespace SyntaxGraph

def Predicate.view : Predicate → Json
  | .equals left right => .object [("equals", .array [left.view, right.view])]
  | .endsWith value suffix => .object [("ends_with", .array [value.view, suffix.view])]
  | .contains value part => .object [("contains", .array [value.view, part.view])]
  | .fullMatch value pattern _ => .object [("full_match", .array [value.view, .string pattern])]
  | .anyOf value options =>
      .object [("any_of", .array [value.view, .array (options.map Expression.view)])]
  | .isBound capture => .object [("exists", .string capture)]
  | .not predicate => .object [("not", predicate.view)]

def optionalText (text : Option String) : Json := .ofOption (text.map .string)

def Action.viewMembers : Action → List (String × Json)
  | .node name kind capture =>
      [("type", .string "node"), ("name", name.view), ("kind", kind.view),
       ("syntax_node", optionalText capture)]
  | .connection source target edge sourceKind targetKind position =>
      [("type", .string "connection"), ("from", source.view), ("to", target.view),
       ("edge", .string edge.name), ("from_kind", .ofOption (sourceKind.map Expression.view)),
       ("to_kind", .ofOption (targetKind.map Expression.view)),
       ("position", optionalText position)]
  | .validateIdentifier identifier =>
      [("type", .string "validate_identifier"), ("identifier", identifier.view)]
  | .recordImport fields =>
      [("type", .string "import"),
       ("fields", .object (fields.entries.map fun (name, field) => (name, field.view)))]

def Converter.view (converter : Converter) : Json :=
  .object (converter.action.viewMembers ++
    [("predicates", .array (converter.predicates.map Predicate.view))])

def PatternEntry.view (entry : PatternEntry) : Json :=
  .object
    [("display", .string entry.pattern.text), ("pattern", entry.pattern.view),
     ("predicates", .array (entry.predicates.map Predicate.view)),
     ("converters", .array (entry.converters.map Converter.view))]

def PatternSet.view (patterns : PatternSet) : Json :=
  .object
    [("count", .natural patterns.length), ("empty", .bool patterns.isEmpty),
     ("entries", .array (patterns.map PatternEntry.view))]

end SyntaxGraph
