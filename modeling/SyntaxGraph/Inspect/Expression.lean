import SyntaxGraph.Expression.Resolve
import SyntaxGraph.Json.Value
import SyntaxGraph.Pattern

/-!
JSON views of patterns, captures, expressions and values, for inspection.
-/

set_option autoImplicit false

namespace SyntaxGraph

def Captures.view (captures : Captures) : Json :=
  .object (captures.entries.map fun (name, node) => (name, .natural node))

def Expression.view (expression : Expression) : Json :=
  let references := expression.references.map fun reference =>
    Json.array [.string reference.name, .bool reference.isOptional]
  .object [("source", .string expression.source), ("captures", .array references)]

def Value.view : Value → Json
  | .text content => .object [("text", .string content)]
  | .list items => .object [("list", .strings items)]
  | .node id => .object [("syntax", .natural id)]
  | .entity id => .object [("graph", .string id)]

mutual

def Pattern.view : Pattern → Json
  | .node rule captures children forbidden optional =>
      .object
        [("rule", .string rule), ("captures", .strings captures),
         ("children", .array (Pattern.allViews children)), ("not_children", .strings forbidden),
         ("optional", .bool optional)]
  | .alternatives options optional =>
      .object [("alternatives", .array (Pattern.allViews options)), ("optional", .bool optional)]

def Pattern.allViews : List Pattern → List Json
  | [] => []
  | pattern :: rest => Pattern.view pattern :: Pattern.allViews rest

end

end SyntaxGraph
