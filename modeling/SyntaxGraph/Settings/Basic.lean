import SyntaxGraph.Path
import SyntaxGraph.Text.LetterCase

/-!
Settings of a run, and the values from the command line that take their place.
-/

set_option autoImplicit false

namespace SyntaxGraph

inductive LogFormat where
  | text
  | json
deriving DecidableEq, Repr, Inhabited

namespace LogFormat

def all : List LogFormat := [.text, .json]

def name : LogFormat → String
  | .text => "text"
  | .json => "json"

def ofName? (text : String) : Option LogFormat := all.find? fun format => format.name = text

end LogFormat

structure Settings where
  /-- Pattern documents, relative to the workspace. -/
  patternPaths : List String
  /-- Worker threads; zero stands for one per processor. -/
  parallelism : Nat
  /-- The language of all files, whatever their extensions. -/
  language : Option String
  /-- Larger files are passed over, in units of 1024 bytes. -/
  maxFileSizeKb : Nat
  logLevel : String
  logFormat : LogFormat
deriving DecidableEq, Repr

inductive SettingsError where
  | unreadableFile (path : String)
  | malformedFile (path : String)
  | unknownLogLevel (level : String)
  | zeroFileSize
deriving DecidableEq, Repr

namespace SettingsError

def key? : SettingsError → Option String
  | .unreadableFile _ | .malformedFile _ => none
  | .unknownLogLevel _ => some "logging.level"
  | .zeroFileSize => some "processing.max_file_size_kb"

end SettingsError

namespace Settings

def logLevels : List String := ["trace", "debug", "info", "warn", "error"]

def default : Settings := ⟨[], 0, none, 1024, "info", .text⟩

instance : Inhabited Settings := ⟨default⟩

/-- Levels are known in any letter case, and the largest file size is positive. -/
def validate (settings : Settings) : Except SettingsError Unit :=
  if !logLevels.contains (Text.lowerName settings.logLevel) then
    .error (.unknownLogLevel settings.logLevel)
  else if settings.maxFileSizeKb = 0 then .error .zeroFileSize
  else .ok ()

def documentPaths (settings : Settings) (workspace : String) : List String :=
  settings.patternPaths.map (Path.join workspace)

/-- The largest file size in bytes, if that is a number of 64 bits. -/
def maxFileBytes? (settings : Settings) : Option Nat :=
  let bytes := settings.maxFileSizeKb * 1024
  if bytes < UInt64.size then some bytes else none

end Settings

def SettingsError.message : SettingsError → String
  | .unreadableFile path => "cannot read " ++ path
  | .malformedFile path => "malformed config " ++ path
  | .unknownLogLevel level =>
      "`logging.level` must be one of " ++ ", ".intercalate Settings.logLevels ++
        " (got '" ++ level ++ "')"
  | .zeroFileSize => "`processing.max_file_size_kb` must be greater than zero"

/-- Values from the command line; what is absent leaves a setting alone. -/
structure SettingsOverrides where
  patternPaths : Option (List String)
  language : Option String
  logLevel : Option String
  parallelism : Option Nat
deriving DecidableEq, Repr

namespace SettingsOverrides

instance : Inhabited SettingsOverrides := ⟨⟨none, none, none, none⟩⟩

def anchor (base : String) (overrides : SettingsOverrides) : SettingsOverrides :=
  { overrides with patternPaths := overrides.patternPaths.map (·.map (Path.join base)) }

/-- Paths are replaced, not added to. -/
def applyTo (overrides : SettingsOverrides) (settings : Settings) : Settings :=
  { settings with
    patternPaths := overrides.patternPaths.getD settings.patternPaths
    language := overrides.language <|> settings.language
    logLevel := overrides.logLevel.getD settings.logLevel
    parallelism := overrides.parallelism.getD settings.parallelism }

end SettingsOverrides

end SyntaxGraph
