import SyntaxGraph.Settings.Layer
import SyntaxGraph.Toml.Printer

/-!
Complete settings as a text, written and read. A reader passes over unknown keys and takes the
defaults for what is missing.
-/

set_option autoImplicit false

namespace SyntaxGraph

namespace Settings

/-- Settings with a number that is too large have no text. -/
def toToml? (settings : Settings) : Option String :=
  if Toml.maxInteger < settings.parallelism || Toml.maxInteger < settings.maxFileSizeKb then none
  else
    let paths := ", ".intercalate (settings.patternPaths.map Toml.quote)
    let language := match settings.language with
      | some name => Toml.line "language" (Toml.quote name)
      | none => ""
    some ("[patterns]\n" ++ Toml.line "paths" ("[" ++ paths ++ "]") ++
      "\n[processing]\n" ++ Toml.line "parallelism" (toString settings.parallelism) ++ language ++
      Toml.line "max_file_size_kb" (toString settings.maxFileSizeKb) ++
      "\n[logging]\n" ++ Toml.line "level" (Toml.quote settings.logLevel) ++
      Toml.line "format" (Toml.quote settings.logFormat.name))

def ofToml? (source : String) : Option Settings := do
  let layer ← SettingsLayer.ofJson? ⟨false, .leading⟩ (← Toml.parse? source)
  return { layer.applyTo default with patternPaths := layer.patternPaths }

end Settings

end SyntaxGraph
