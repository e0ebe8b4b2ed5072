import SyntaxGraph.Json.Value
import SyntaxGraph.Settings.Basic

/-!
JSON view of settings, for inspection.
-/

set_option autoImplicit false

namespace SyntaxGraph

def Settings.view (settings : Settings) (workspace : String) : Json :=
  .object
    [("patterns", .strings settings.patternPaths),
     ("pattern_paths", .strings (settings.documentPaths workspace)),
     ("processing", .object
       [("parallelism", .natural settings.parallelism),
        ("language", .ofOption (settings.language.map .string)),
        ("max_file_size_kb", .natural settings.maxFileSizeKb)]),
     ("logging", .object
       [("level", .string settings.logLevel), ("format", .string settings.logFormat.name)])]

end SyntaxGraph
