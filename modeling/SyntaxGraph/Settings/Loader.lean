import SyntaxGraph.Files.System
import SyntaxGraph.Settings.Layer

/-!
Loading the settings of a workspace from its files. A global file lies below the workspace's own
one, and both lie below the values from the command line. The global file is read once.
-/

set_option autoImplicit false

namespace SyntaxGraph

def settingsFileName : String := "config.toml"

def settingsDirectoryName : String := ".codeweave"

def SettingsLayer.load (files : FileSystem) (path : String) :
    Except SettingsError (Option SettingsLayer) :=
  if !files.isFile path then .ok none
  else
    match files.readText? path with
    | none => .error (.unreadableFile path)
    | some source =>
        match parse? source with
        | none => .error (.malformedFile path)
        | some layer => .ok (some layer)

structure SettingsLoader where
  globalDirectory : Option String
  /-- The global layer, once it has been read. -/
  cached : Option SettingsLayer
deriving DecidableEq, Repr, Inhabited

namespace SettingsLoader

def ofDirectory (globalDirectory : Option String) : SettingsLoader := ⟨globalDirectory, none⟩

def ofHome (home : Option String) : SettingsLoader :=
  ofDirectory (home.map fun home => Path.join home settingsDirectoryName)

def globalPath? (loader : SettingsLoader) : Option String :=
  loader.globalDirectory.map fun directory => Path.join directory settingsFileName

def localPath (workspace : String) : String :=
  Path.join (Path.join workspace settingsDirectoryName) settingsFileName

def clear (loader : SettingsLoader) : SettingsLoader := { loader with cached := none }

/-- The global layer, with its documents relative to the global directory. A missing file is looked
for again the next time. -/
def globalLayer (loader : SettingsLoader) (files : FileSystem) :
    Except SettingsError (Option SettingsLayer × SettingsLoader) :=
  match loader.cached, loader.globalDirectory with
  | some layer, _ => .ok (some layer, loader)
  | none, none => .ok (none, loader)
  | none, some directory => do
      let read ← SettingsLayer.load files (Path.join directory settingsFileName)
      let layer := read.map (SettingsLayer.rebase directory)
      return (layer, { loader with cached := layer })

def applyLayer (layer : Option SettingsLayer) (settings : Settings) : Settings :=
  match layer with
  | some layer => layer.applyTo settings
  | none => settings

def merge (globalLayer localLayer : Option SettingsLayer) (overrides : SettingsOverrides) :
    Settings :=
  overrides.applyTo (applyLayer localLayer (applyLayer globalLayer .default))

def loadAbove (globalLayer : Option SettingsLayer) (files : FileSystem) (workspace : String)
    (overrides : SettingsOverrides) : Except SettingsError Settings := do
  let localLayer ← SettingsLayer.load files (localPath workspace)
  let settings := merge globalLayer localLayer overrides
  settings.validate
  return settings

/-- Loads the settings of a workspace. The loader keeps the global layer also where the rest
fails. -/
def load (loader : SettingsLoader) (files : FileSystem) (workspace : String)
    (overrides : SettingsOverrides) : Except SettingsError Settings × SettingsLoader :=
  match loader.globalLayer files with
  | .error error => (.error error, loader)
  | .ok (layer, loader) => (loadAbove layer files workspace overrides, loader)

end SettingsLoader

end SyntaxGraph
