import SyntaxGraph.Json.Record
import SyntaxGraph.Settings.Basic
import SyntaxGraph.Toml.Parser

/-!
Settings as one file writes them, and their place above the settings below. A layer changes only
what it mentions; its pattern documents come behind those that are there.
-/

set_option autoImplicit false

namespace SyntaxGraph

open Json (RecordForm fields? listOf? fieldD optionalField?)

structure SettingsLayer where
  patternPaths : List String
  parallelism : Option Nat
  language : Option String
  maxFileSizeKb : Option Nat
  logLevel : Option String
  logFormat : Option LogFormat
deriving DecidableEq, Repr, Inhabited

namespace SettingsLayer

/-- A format is a name, or the only key of a table, with nothing in it. -/
def readLogFormat : Json → Option LogFormat
  | .string name | .object [(name, .object [])] | .object [(name, .array [])] =>
      LogFormat.ofName? name
  | _ => none

/-- A table in a layer: its fields, each absent where the whole table is. -/
def readTable (form : RecordForm) (names : List (List String)) :
    Option Json → Option (List (Option Json))
  | none => some (names.map fun _ => none)
  | some table => fields? form names table

def ofJson? (form : RecordForm) (value : Json) : Option SettingsLayer := do
  match ← fields? form [["patterns"], ["processing"], ["logging"]] value with
  | [patterns, processing, logging] =>
      let patternFields ← readTable form [["paths"]] patterns
      let processingFields ←
        readTable form [["parallelism"], ["language"], ["max_file_size_kb"]] processing
      let loggingFields ← readTable form [["level"], ["format"]] logging
      match patternFields, processingFields, loggingFields with
      | [paths], [parallelism, language, maxFileSize], [level, format] =>
          return ⟨← fieldD (listOf? Json.text?) [] paths,
            ← optionalField? Json.natural? parallelism, ← optionalField? Json.text? language,
            ← optionalField? Json.natural? maxFileSize, ← optionalField? Json.text? level,
            ← optionalField? readLogFormat format⟩
      | _, _, _ => none
  | _ => none

def parse? (source : String) : Option SettingsLayer :=
  (Toml.parse? source).bind (ofJson? ⟨true, .leading⟩)

def rebase (base : String) (layer : SettingsLayer) : SettingsLayer :=
  { layer with patternPaths := layer.patternPaths.map (Path.join base) }

def addPath (paths : List String) (path : String) : List String :=
  if paths.any (Path.same path) then paths else paths ++ [path]

def applyTo (layer : SettingsLayer) (settings : Settings) : Settings where
  patternPaths := layer.patternPaths.foldl addPath settings.patternPaths
  parallelism := layer.parallelism.getD settings.parallelism
  language := layer.language <|> settings.language
  maxFileSizeKb := layer.maxFileSizeKb.getD settings.maxFileSizeKb
  logLevel := layer.logLevel.getD settings.logLevel
  logFormat := layer.logFormat.getD settings.logFormat

end SettingsLayer

end SyntaxGraph
