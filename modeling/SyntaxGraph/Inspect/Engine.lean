import SyntaxGraph.Engine.Execute
import SyntaxGraph.Inspect.Expression

/-!
JSON views of matches and of the statistics of a run, for inspection.
-/

set_option autoImplicit false

namespace SyntaxGraph

def Match.view (found : Match) : Json :=
  .object
    [("start", .natural found.start), ("pattern", .natural found.pattern),
     ("captures", found.captures.view)]

namespace MatchNode

mutual

def view : MatchNode → Json
  | mk found children => .object [("match", found.view), ("children", .array (allViews children))]

def allViews : List MatchNode → List Json
  | [] => []
  | node :: rest => view node :: allViews rest

end

end MatchNode

def ExecutionStats.view (stats : ExecutionStats) : Json :=
  .object
    [("matches", .natural stats.matched), ("converters_executed", .natural stats.executed),
     ("converters_skipped", .natural stats.skipped), ("nodes_added", .natural stats.entitiesAdded),
     ("edges_added", .natural stats.edgesAdded)]

end SyntaxGraph
