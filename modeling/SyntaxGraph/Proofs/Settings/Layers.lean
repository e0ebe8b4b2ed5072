import SyntaxGraph.CommandLine.Command
import SyntaxGraph.Proofs.Files.Joining
import SyntaxGraph.Settings.Loader

/-!
What a load makes of the global file, the workspace's own file and the command line. Each setting has
the value of the uppermost source that sets it. Documents add up over the files, and those of the
command line stand in place of them all. Relative documents are taken from three places: those of the
global file from its directory, those of the command line from the current directory, and those of the
workspace's file, last of all, from the workspace.
-/

set_option autoImplicit false

namespace SyntaxGraph

namespace SettingsLayer

theorem erase_dups_loop (paths : List String) : ∀ reversed : List String,
    List.eraseDupsBy.loop Path.same paths reversed = paths.foldl addPath reversed.reverse := by
  induction paths with
  | nil => exact fun reversed => rfl
  | cons path paths rest =>
      intro reversed
      rw [List.foldl_cons, List.eraseDupsBy.loop, addPath, List.any_reverse]
      cases reversed.any (Path.same path) with
      | true => exact rest reversed
      | false => exact (rest (path :: reversed)).trans (by rw [List.reverse_cons]; rfl)

theorem foldl_add_path (paths : List String) :
    paths.foldl addPath [] = paths.eraseDupsBy Path.same :=
  (erase_dups_loop paths []).symm

theorem load_text {files : FileSystem} {path source : String} {layer : SettingsLayer}
    (present : files.isFile path) (text : files.readText? path = some source)
    (wellFormed : parse? source = some layer) : load files path = .ok (some layer) := by
  simp only [load, present, text, wellFormed]
  rfl

end SettingsLayer

/-- What a load goes by: the layers as the files have them, and the values as the command line gives
them. -/
structure SettingsSources where
  globalLayer : Option SettingsLayer
  /-- The directory of the global file. -/
  globalDirectory : String
  ownLayer : Option SettingsLayer
  overrides : SettingsOverrides
  /-- The current directory of the command line. -/
  base : String

namespace SettingsSources

variable {Value : Type}

/-- The value of the uppermost source that sets a key. -/
def uppermost (sources : SettingsSources) (override : Option Value)
    (key : SettingsLayer → Option Value) : Option Value :=
  override.or ((sources.ownLayer.bind key).or (sources.globalLayer.bind key))

def logLevel (sources : SettingsSources) : String :=
  (sources.uppermost sources.overrides.logLevel SettingsLayer.logLevel).getD "info"

def maxFileSizeKb (sources : SettingsSources) : Nat :=
  (sources.uppermost none SettingsLayer.maxFileSizeKb).getD 1024

def pathsOf (layer : Option SettingsLayer) : List String :=
  (layer.map SettingsLayer.patternPaths).getD []

def documents (sources : SettingsSources) (workspace : String) : List String :=
  match sources.overrides.patternPaths with
  | some paths => paths.map (Path.join sources.base)
  | none =>
      (((pathsOf sources.globalLayer).map (Path.join sources.globalDirectory) ++
        pathsOf sources.ownLayer).eraseDupsBy Path.same).map (Path.join workspace)

/-- Settings in which each value comes from the source that it should come from. -/
structure Give (sources : SettingsSources) (workspace : String) (settings : Settings) : Prop where
  language : settings.language =
    sources.uppermost sources.overrides.language SettingsLayer.language
  logLevel : settings.logLevel = sources.logLevel
  parallelism : settings.parallelism =
    (sources.uppermost sources.overrides.parallelism SettingsLayer.parallelism).getD 0
  logFormat : settings.logFormat = (sources.uppermost none SettingsLayer.logFormat).getD .text
  maxFileSizeKb : settings.maxFileSizeKb = sources.maxFileSizeKb
  documents : settings.documentPaths workspace = sources.documents workspace

def Unusable (sources : SettingsSources) : Prop :=
  Text.lowerName sources.logLevel ∉ Settings.logLevels ∨ sources.maxFileSizeKb = 0

instance (sources : SettingsSources) : Decidable sources.Unusable :=
  inferInstanceAs (Decidable (_ ∨ _))

end SettingsSources

namespace SettingsLoader

/-- The layer of the global file that a loader goes by, as the file had it when it was read. -/
inductive Knows (files : FileSystem) (directory : String) :
    SettingsLoader → Option SettingsLayer → Prop where
  | homeless : Knows files directory ⟨none, none⟩ none
  | unread {layer : Option SettingsLayer} :
      SettingsLayer.load files (Path.join directory settingsFileName) = .ok layer →
      Knows files directory ⟨some directory, none⟩ layer
  | remembered (layer : SettingsLayer) :
      Knows files directory ⟨some directory, some (layer.rebase directory)⟩ (some layer)

variable {files : FileSystem} {directory workspace : String} {loader : SettingsLoader}
  {layer : Option SettingsLayer}

theorem Knows.global_layer (known : Knows files directory loader layer) :
    ∃ after,
      loader.globalLayer files = .ok (layer.map (SettingsLayer.rebase directory), after) := by
  cases known with
  | homeless => exact ⟨_, rfl⟩
  | remembered layer => exact ⟨_, rfl⟩
  | unread read =>
      simp only [globalLayer, read]
      exact ⟨_, rfl⟩

/-- The loaders that loads and clearings lead to, from one that has read nothing. -/
inductive Reachable (directory : String) : SettingsLoader → Prop where
  | start : Reachable directory (ofDirectory (some directory))
  | load {loader : SettingsLoader} (files : FileSystem) (workspace : String)
      (overrides : SettingsOverrides) :
      Reachable directory loader → Reachable directory (loader.load files workspace overrides).2
  | clear {loader : SettingsLoader} : Reachable directory loader → Reachable directory loader.clear

def Keeps (directory : String) (loader : SettingsLoader) : Prop :=
  loader = ⟨some directory, none⟩ ∨
    ∃ layer : SettingsLayer, loader = ⟨some directory, some (layer.rebase directory)⟩

theorem Keeps.after_load (keeps : Keeps directory loader) (overrides : SettingsOverrides) :
    Keeps directory (loader.load files workspace overrides).2 := by
  rcases keeps with rfl | ⟨kept, rfl⟩
  · cases read : SettingsLayer.load files (Path.join directory settingsFileName) with
    | error error =>
        simp only [load, globalLayer, read]
        exact Or.inl rfl
    | ok layer =>
        simp only [load, globalLayer, read]
        cases layer with
        | none => exact Or.inl rfl
        | some layer => exact Or.inr ⟨layer, rfl⟩
  · exact Or.inr ⟨kept, rfl⟩

theorem Reachable.keeps (reachable : Reachable directory loader) : Keeps directory loader := by
  induction reachable with
  | start => exact Or.inl rfl
  | load files workspace overrides _ keeps => exact keeps.after_load overrides
  | clear _ keeps =>
      rcases keeps with rfl | ⟨layer, rfl⟩
      · exact Or.inl rfl
      · exact Or.inl rfl

/-- Whatever was loaded before, there is a layer that the next load goes by if it can read the global
file. -/
theorem Reachable.knows (reachable : Reachable directory loader)
    (read : SettingsLayer.load files (Path.join directory settingsFileName) = .ok layer) :
    ∃ inForce, Knows files directory loader inForce := by
  rcases reachable.keeps with rfl | ⟨kept, rfl⟩
  · exact ⟨layer, Knows.unread read⟩
  · exact ⟨some kept, Knows.remembered kept⟩

-- The merged settings

theorem apply_layer_value {Value : Type} {value : Settings → Option Value}
    {key : SettingsLayer → Option Value}
    (sets : ∀ layer settings, value (layer.applyTo settings) = (key layer).or (value settings))
    (layer : Option SettingsLayer) (settings : Settings) :
    value (applyLayer layer settings) = (layer.bind key).or (value settings) := by
  cases layer with
  | none => rfl
  | some layer => exact sets layer settings

theorem apply_layer_paths (layer : Option SettingsLayer) (settings : Settings) :
    (applyLayer layer settings).patternPaths =
      (SettingsSources.pathsOf layer).foldl SettingsLayer.addPath settings.patternPaths := by
  cases layer with
  | none => rfl
  | some layer => rfl

end SettingsLoader

namespace SettingsSources

/-- The settings that a load merges from its sources. -/
def merged (sources : SettingsSources) : Settings :=
  SettingsLoader.merge (sources.globalLayer.map (SettingsLayer.rebase sources.globalDirectory))
    sources.ownLayer (sources.overrides.anchor sources.base)

theorem merged_value {Value : Type} (sources : SettingsSources) (value : Settings → Option Value)
    {key : SettingsLayer → Option Value} {override : Option Value}
    (sets : ∀ layer settings, value (layer.applyTo settings) = (key layer).or (value settings))
    (overrides : ∀ settings, value ((sources.overrides.anchor sources.base).applyTo settings) =
      override.or (value settings))
    (rebased : ∀ layer, key (SettingsLayer.rebase sources.globalDirectory layer) = key layer) :
    value sources.merged = (sources.uppermost override key).or (value .default) := by
  have below : (sources.globalLayer.map (SettingsLayer.rebase sources.globalDirectory)).bind key =
      sources.globalLayer.bind key := by
    cases sources.globalLayer with
    | none => rfl
    | some layer => exact rebased layer
  rw [merged, SettingsLoader.merge, overrides, SettingsLoader.apply_layer_value sets,
    SettingsLoader.apply_layer_value sets, below, uppermost, Option.or_assoc, Option.or_assoc]

theorem merged_required_value {Value : Type} (sources : SettingsSources) (value : Settings → Value)
    {key : SettingsLayer → Option Value} {override : Option Value}
    (sets : ∀ layer settings, value (layer.applyTo settings) = (key layer).getD (value settings))
    (overrides : ∀ settings, value ((sources.overrides.anchor sources.base).applyTo settings) =
      override.getD (value settings))
    (rebased : ∀ layer, key (SettingsLayer.rebase sources.globalDirectory layer) = key layer) :
    value sources.merged = (sources.uppermost override key).getD (value .default) := by
  have present := sources.merged_value (fun settings => some (value settings))
    (fun layer settings => by rw [sets, Option.or_some])
    (fun settings => by rw [overrides, Option.or_some]) rebased
  rw [Option.or_some] at present
  exact Option.some.inj present

theorem paths_of_rebased (directory : String) (layer : Option SettingsLayer) :
    pathsOf (layer.map (SettingsLayer.rebase directory)) =
      (pathsOf layer).map (Path.join directory) := by
  cases layer with
  | none => rfl
  | some layer => rfl

/-- The documents that the two files list, the global ones behind their directory. -/
def entries (sources : SettingsSources) : List String :=
  (pathsOf sources.globalLayer).map (Path.join sources.globalDirectory) ++
    pathsOf sources.ownLayer

theorem listed_paths (sources : SettingsSources) :
    (SettingsLoader.applyLayer sources.ownLayer (SettingsLoader.applyLayer
      (sources.globalLayer.map (SettingsLayer.rebase sources.globalDirectory)) .default)).patternPaths =
      sources.entries.foldl SettingsLayer.addPath [] := by
  rw [SettingsLoader.apply_layer_paths, SettingsLoader.apply_layer_paths, paths_of_rebased,
    ← List.foldl_append]
  rfl

theorem merged_documents (sources : SettingsSources) (workspace : String)
    (absolute : Path.isAbsolute sources.base) :
    sources.merged.documentPaths workspace = sources.documents workspace := by
  have files := sources.listed_paths.trans (SettingsLayer.foldl_add_path sources.entries)
  cases named : sources.overrides.patternPaths with
  | none =>
      simp only [documents, Settings.documentPaths, merged, SettingsLoader.merge,
        SettingsOverrides.applyTo, SettingsOverrides.anchor, named, Option.map_none,
        Option.getD_none, files, entries]
  | some paths =>
      simp only [documents, Settings.documentPaths, merged, SettingsLoader.merge,
        SettingsOverrides.applyTo, SettingsOverrides.anchor, named, Option.map_some,
        Option.getD_some, List.map_map]
      apply List.map_congr_left
      intro path _
      exact Path.join_join_of_absolute workspace path absolute

theorem merged_given (sources : SettingsSources) (workspace : String)
    (absolute : Path.isAbsolute sources.base) : sources.Give workspace sources.merged where
  language :=
    (sources.merged_value Settings.language (fun _ _ => Option.orElse_eq_or)
      (fun _ => Option.orElse_eq_or) (fun _ => rfl)).trans Option.or_none
  logLevel :=
    sources.merged_required_value Settings.logLevel (fun _ _ => rfl) (fun _ => rfl) fun _ => rfl
  parallelism :=
    sources.merged_required_value Settings.parallelism (fun _ _ => rfl) (fun _ => rfl) fun _ => rfl
  logFormat :=
    sources.merged_required_value Settings.logFormat (fun _ _ => rfl) (fun _ => rfl) fun _ => rfl
  maxFileSizeKb :=
    sources.merged_required_value Settings.maxFileSizeKb (fun _ _ => rfl) (fun _ => rfl) fun _ => rfl
  documents := sources.merged_documents workspace absolute

end SettingsSources

theorem Settings.validate_cases (settings : Settings) :
    (settings.validate = .ok () ∧
      ¬(Text.lowerName settings.logLevel ∉ logLevels ∨ settings.maxFileSizeKb = 0)) ∨
    ((∃ error, settings.validate = .error error ∧ error.key?.isSome) ∧
      (Text.lowerName settings.logLevel ∉ logLevels ∨ settings.maxFileSizeKb = 0)) := by
  by_cases known : Text.lowerName settings.logLevel ∈ logLevels
  · by_cases empty : settings.maxFileSizeKb = 0
    · refine Or.inr ⟨⟨.zeroFileSize, ?_, rfl⟩, Or.inr empty⟩
      simp [validate, known, empty]
    · refine Or.inl ⟨?_, fun unusable => unusable.elim (fun unknown => unknown known) empty⟩
      simp [validate, known, empty]
  · refine Or.inr ⟨⟨.unknownLogLevel settings.logLevel, ?_, rfl⟩, Or.inl known⟩
    simp [validate, known]

namespace SettingsLoader

theorem load_merged {files : FileSystem} {workspace : String} {loader : SettingsLoader}
    {sources : SettingsSources}
    (known : Knows files sources.globalDirectory loader sources.globalLayer)
    (read : SettingsLayer.load files (localPath workspace) = .ok sources.ownLayer) :
    (loader.load files workspace (sources.overrides.anchor sources.base)).1 =
      sources.merged.validate.map fun _ => sources.merged := by
  obtain ⟨after, readGlobal⟩ := known.global_layer
  simp only [load, readGlobal, loadAbove, read]
  change (sources.merged.validate >>= fun _ => .ok sources.merged) = _
  cases sources.merged.validate with
  | error error => rfl
  | ok _ => rfl

end SettingsLoader

namespace CommandLine

def Invocation.documents (invocation : Invocation) : List String :=
  match invocation.command with
  | .run options => options.patterns
  | .check patterns => patterns
  | .tree _ => []

theorem Invocation.overrides_documents (invocation : Invocation) :
    invocation.overrides.patternPaths =
      if invocation.documents.isEmpty then none else some invocation.documents := by
  obtain ⟨verbose, workspace, command⟩ := invocation
  cases command with
  | run options => rfl
  | check patterns => rfl
  | tree options => rfl

theorem Invocation.gives_documents (invocation : Invocation) :
    invocation.overrides.patternPaths.isSome ↔ invocation.documents ≠ [] := by
  rw [invocation.overrides_documents]
  cases invocation.documents with
  | nil => simp
  | cons first others => simp

end CommandLine

theorem FileSystem.absolute_current_path (files : FileSystem) :
    Path.isAbsolute files.currentPath :=
  Path.absolute_append ("/".intercalate files.current) rfl

namespace SettingsLoader

/-- A home directory with a global file, and a workspace with a file of its own, which is the current
directory. -/
def homeAndWorkspace : FileSystem where
  top := .directory
    [("home", .directory [(".codeweave", .directory [("config.toml", .file globalText.toUTF8)])]),
     ("work", .directory [(".codeweave", .directory [("config.toml", .file ownText.toUTF8)])])]
  current := ["work"]
where
  globalText : String :=
    "[patterns]\npaths = [\"shared.json\"]\n[logging]\nlevel = \"warn\"\n"
  ownText : String :=
    "[patterns]\npaths = [\"own.toml\", \"/home/.codeweave/shared.json\"]\n" ++
      "[processing]\nlanguage = \"rust\"\n"

def verboseCheck : SettingsSources where
  globalLayer := some ⟨["shared.json"], none, none, none, some "warn", none⟩
  globalDirectory := "/home/.codeweave"
  ownLayer := some ⟨["own.toml", "/home/.codeweave/shared.json"], none, some "rust", none, none, none⟩
  overrides := (⟨true, "/work", .check []⟩ : CommandLine.Invocation).overrides
  base := homeAndWorkspace.currentPath

theorem verbose_check_known :
    Knows homeAndWorkspace verboseCheck.globalDirectory (ofHome (some "/home"))
      verboseCheck.globalLayer :=
  Knows.unread (SettingsLayer.load_text (by decide +kernel)
    (show _ = some homeAndWorkspace.globalText by decide +kernel) (by decide +kernel))

theorem verbose_check_read :
    SettingsLayer.load homeAndWorkspace (localPath "/work") = .ok verboseCheck.ownLayer :=
  SettingsLayer.load_text (by decide +kernel)
    (show _ = some homeAndWorkspace.ownText by decide +kernel) (by decide +kernel)

end SettingsLoader

end SyntaxGraph
