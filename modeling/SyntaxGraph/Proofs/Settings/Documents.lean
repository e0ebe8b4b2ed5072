import Mathlib.Data.List.Nodup
import SyntaxGraph.Document.Files
import SyntaxGraph.Proofs.Settings.Layers
import SyntaxGraph.Regex.Compile

/-!
Which documents a load lists, and how often. A document is added unless the path that is written for
it is there in some spelling; what the path leads to from the workspace is found only afterwards. So
documents are listed once exactly if none has a second name: a name relative to the workspace beside
its full one, or a relative name with a leading dot beside the one without.
-/

set_option autoImplicit false

namespace SyntaxGraph

open SyntaxGraph.Path (components)

namespace SettingsLayer

theorem any_same_iff (paths : List String) (path : String) :
    paths.any (Path.same path) = true ↔ components path ∈ paths.map components := by
  rw [List.any_eq_true, List.mem_map]
  constructor
  · intro ⟨listed, member, same⟩
    exact ⟨listed, member, (of_decide_eq_true same).symm⟩
  · intro ⟨listed, member, same⟩
    exact ⟨listed, member, decide_eq_true same.symm⟩

theorem add_path_present {paths : List String} {path : String}
    (present : components path ∈ paths.map components) : addPath paths path = paths := by
  rw [addPath, if_pos ((any_same_iff paths path).2 present)]

theorem add_path_absent {paths : List String} {path : String}
    (absent : components path ∉ paths.map components) : addPath paths path = paths ++ [path] := by
  rw [addPath, if_neg (mt (any_same_iff paths path).1 absent)]

theorem places_add_path (paths : List String) (path : String) (place : List Path.Component) :
    place ∈ (addPath paths path).map components ↔
      place ∈ paths.map components ∨ place = components path := by
  by_cases present : components path ∈ paths.map components
  · rw [add_path_present present]
    exact ⟨Or.inl, fun either => either.elim id fun same => same ▸ present⟩
  · rw [add_path_absent present, List.map_append, List.mem_append, List.map_singleton,
      List.mem_singleton]

theorem places_add_paths (paths added : List String) (place : List Path.Component) :
    place ∈ (added.foldl addPath paths).map components ↔
      place ∈ paths.map components ∨ place ∈ added.map components := by
  induction added generalizing paths with
  | nil => simp
  | cons path added induction =>
      rw [List.foldl_cons, induction, places_add_path, List.map_cons, List.mem_cons, or_assoc]

theorem mem_of_mem_add_paths {paths added : List String} {path : String}
    (listed : path ∈ added.foldl addPath paths) : path ∈ paths ∨ path ∈ added := by
  induction added generalizing paths with
  | nil => exact Or.inl listed
  | cons first added induction =>
      rw [List.foldl_cons] at listed
      rcases induction listed with early | late
      · by_cases present : components first ∈ paths.map components
        · rw [add_path_present present] at early
          exact Or.inl early
        · rw [add_path_absent present, List.mem_append, List.mem_singleton] at early
          rcases early with old | rfl
          · exact Or.inl old
          · exact Or.inr List.mem_cons_self
      · exact Or.inr (List.mem_cons_of_mem _ late)

theorem add_paths_distinct {paths : List String} (added : List String)
    (distinct : (paths.map components).Nodup) :
    ((added.foldl addPath paths).map components).Nodup := by
  induction added generalizing paths with
  | nil => exact distinct
  | cons path added induction =>
      rw [List.foldl_cons]
      apply induction
      by_cases present : components path ∈ paths.map components
      · rw [add_path_present present]
        exact distinct
      · rw [add_path_absent present, List.map_append, List.map_singleton, ← List.concat_eq_append]
        exact distinct.concat present

/-- Paths that were added lead to different places behind a base unless one has a second name. -/
theorem resolved_distinct_iff (base : String) (added : List String) :
    (((added.foldl addPath []).map (Path.join base)).map components).Nodup ↔
      ∀ first ∈ added, ∀ second ∈ added, ¬Path.SecondName base first second := by
  have distinct := add_paths_distinct added (show ([].map components).Nodup from .nil)
  have listed : ∀ path ∈ added.foldl addPath [], path ∈ added := fun path member =>
    (mem_of_mem_add_paths member).resolve_left List.not_mem_nil
  rw [List.map_map, List.nodup_map_iff_inj_on distinct.of_map]
  constructor
  · intro apart first given second also again
    have covered : ∀ path ∈ added,
        ∃ kept ∈ added.foldl addPath [], components kept = components path := fun path member =>
      List.mem_map.1 ((places_add_paths [] added _).2 (Or.inr (List.mem_map_of_mem member)))
    obtain ⟨kept, stays, same⟩ := covered first given
    obtain ⟨other, remains, alike⟩ := covered second also
    have together : components (Path.join base kept) = components (Path.join base other) := by
      have resolved := Path.join_same_iff base
      rw [(resolved kept first).2 (Or.inl same), (resolved other second).2 (Or.inl alike)]
      exact (resolved first second).2 (Or.inr (Or.inl again))
    cases apart kept stays other remains together
    exact again.differs (same.symm.trans alike)
  · intro single first kept second other together
    rcases (Path.join_same_iff base first second).1 together with same | again | again
    · exact List.inj_on_of_nodup_map distinct kept other same
    · exact absurd again (single first (listed first kept) second (listed second other))
    · exact absurd again (single second (listed second other) first (listed first kept))

end SettingsLayer

namespace SettingsLoader

/-- Loaded without documents from the command line, the documents contain no path twice exactly if
none of those that the two files list has a second name in the workspace. -/
theorem documents_distinct_iff {files : FileSystem} {workspace : String} {loader : SettingsLoader}
    {sources : SettingsSources} {settings : Settings}
    (known : Knows files sources.globalDirectory loader sources.globalLayer)
    (read : SettingsLayer.load files (localPath workspace) = .ok sources.ownLayer)
    (unnamed : sources.overrides.patternPaths = none)
    (loaded : (loader.load files workspace (sources.overrides.anchor sources.base)).1 =
      .ok settings) :
    ((settings.documentPaths workspace).map components).Nodup ↔
      ∀ first ∈ sources.entries, ∀ second ∈ sources.entries,
        ¬Path.SecondName workspace first second := by
  have merged : settings = sources.merged := by
    rw [load_merged known read] at loaded
    cases valid : sources.merged.validate with
    | error error =>
        rw [valid] at loaded
        cases loaded
    | ok _ =>
        rw [valid] at loaded
        exact (Except.ok.inj loaded).symm
  have stored : settings.patternPaths = sources.entries.foldl SettingsLayer.addPath [] := by
    rw [merged, ← sources.listed_paths]
    simp only [SettingsSources.merged, merge, SettingsOverrides.applyTo, SettingsOverrides.anchor,
      unnamed, Option.map_none, Option.getD_none]
  rw [Settings.documentPaths, stored]
  exact SettingsLayer.resolved_distinct_iff workspace sources.entries

theorem verbose_check_lists_once : ∃ settings,
    ((ofHome (some "/home")).load homeAndWorkspace "/work"
      (verboseCheck.overrides.anchor verboseCheck.base)).1 = .ok settings ∧
    ((settings.documentPaths "/work").map components).Nodup := by
  have merged := load_merged verbose_check_known verbose_check_read
  have valid : verboseCheck.merged.validate = .ok () := by decide +kernel
  rw [valid] at merged
  exact ⟨_, merged, (documents_distinct_iff verbose_check_known verbose_check_read rfl merged).2
    (by decide +kernel)⟩

/-- The global file lists a document of the workspace in full, and the workspace's own file lists it
relative to the workspace. -/
def documentListedTwice : FileSystem where
  top := .directory
    [("home", .directory [(".codeweave", .directory [("config.toml",
        .file "[patterns]\npaths = [\"/work/p.json\"]\n".toUTF8)])]),
     ("work", .directory
        [(".codeweave", .directory [("config.toml",
            .file "[patterns]\npaths = [\"p.json\"]\n".toUTF8)]),
         ("p.json", .file "[\x7b\"pattern\": \x7b\"rule\": \"f\"\x7d\x7d]".toUTF8)])]
  current := ["work"]

/-- The two names are compared before the relative one is taken from the workspace. The only pattern
of the document is there twice. -/
theorem second_name_kept : ∃ settings,
    ((ofHome (some "/home")).load documentListedTwice "/work" default).1 = .ok settings ∧
    settings.documentPaths "/work" = ["/work/p.json", "/work/p.json"] ∧
    (PatternSet.ofPaths Regex.engine documentListedTwice (settings.documentPaths "/work")).toOption.map
      List.length = some 2 := by
  refine ⟨⟨["/work/p.json", "p.json"], 0, none, 1024, "info", .text⟩, ?_, ?_, ?_⟩
  · decide +kernel
  · decide +kernel
  · decide +kernel

end SettingsLoader

end SyntaxGraph
