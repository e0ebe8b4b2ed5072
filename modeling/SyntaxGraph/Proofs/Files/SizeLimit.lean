import Mathlib.Data.List.Perm.Subperm
import SyntaxGraph.CommandLine.Execute
import SyntaxGraph.Proofs.Files.Sources
import SyntaxGraph.Proofs.Outcome
import SyntaxGraph.Proofs.Settings.Layers

/-!
The largest file size as a run applies it. It is counted in bytes, in 64 bits, and settings with a size
that does not fit into them are accepted all the same; a run with such settings breaks off before it
looks for a file.
-/

set_option autoImplicit false

namespace SyntaxGraph

namespace FileSystem

variable {files : FileSystem} {filter : SourceFilter}

theorem present_of_sources {arguments found : List String}
    (yielded : files.sources filter arguments = .ok found) :
    ∀ argument ∈ arguments, (files.find? argument).isSome := by
  obtain ⟨each, collected, -⟩ := exists_of_bind_ok yielded
  clear yielded
  induction arguments generalizing each with
  | nil => exact fun _ listed => absurd listed List.not_mem_nil
  | cons argument rest induction =>
      rw [List.mapM_cons] at collected
      obtain ⟨first, here, later⟩ := exists_of_bind_ok collected
      obtain ⟨others, behind, -⟩ := exists_of_bind_ok later
      refine List.forall_mem_cons.2 ⟨?_, induction others behind⟩
      cases missing : files.find? argument with
      | none =>
          rw [sourcesAt, missing] at here
          cases here
      | some tree => rfl

theorem StandsFor.of_higher_limit {language : Option Language} {argument path : String}
    {lower higher : Nat} (stands : files.StandsFor ⟨language, lower⟩ argument path)
    (atLeast : lower ≤ higher) : files.StandsFor ⟨language, higher⟩ argument path := by
  cases stands with
  | file found => exact .file found
  | below found shows wants =>
      exact .below found shows ⟨wants.supported, wants.fits.trans atLeast⟩

theorem sources_of_higher_limit {language : Option Language} {arguments found : List String}
    {lower higher : Nat} (atLeast : lower ≤ higher)
    (yielded : files.sources ⟨language, lower⟩ arguments = .ok found) :
    ∃ more, files.sources ⟨language, higher⟩ arguments = .ok more ∧
      (∀ path ∈ found, ∃ kept ∈ more, Path.same kept path = true) ∧
      found.length ≤ more.length := by
  have present := present_of_sources yielded
  obtain ⟨few, sortedFew, standFew⟩ := sources_sorted files ⟨language, lower⟩ present
  obtain ⟨many, sortedMany, standMany⟩ := sources_sorted files ⟨language, higher⟩ present
  cases yielded.symm.trans sortedFew
  have covers : ∀ path ∈ Path.sortUnique few,
      ∃ kept ∈ Path.sortUnique many, Path.place kept = Path.place path := by
    intro path kept
    obtain ⟨argument, given, stands⟩ := (standFew path).1 (Path.mem_of_mem_sort_unique kept)
    exact Path.sort_unique_covers
      ((standMany path).2 ⟨argument, given, stands.of_higher_limit atLeast⟩)
  refine ⟨Path.sortUnique many, sortedMany, fun path kept => ?_, ?_⟩
  · obtain ⟨other, stays, alike⟩ := covers path kept
    exact ⟨other, stays, Path.same_iff.2 alike⟩
  · have distinct : ((Path.sortUnique few).map Path.place).Nodup :=
      List.pairwise_map.2 ((Path.sort_unique_increasing few).imp fun less => less.ne)
    have places : (Path.sortUnique few).map Path.place ⊆ (Path.sortUnique many).map Path.place := by
      intro place member
      obtain ⟨path, kept, rfl⟩ := List.mem_map.1 member
      exact List.mem_map.2 (covers path kept)
    have fewer := (List.Nodup.subperm distinct places).length_le
    rw [List.length_map, List.length_map] at fewer
    exact fewer

/-- A directory with one text of a known language, which is as long as is asked for. -/
def withTextOf (size : Nat) : FileSystem where
  top := .directory [("a.py", .file ⟨Array.replicate size 0⟩)]
  current := []

theorem with_text_found (size : Nat) :
    (withTextOf size).find? "/" = some (withTextOf size).top := rfl

theorem text_stands_iff (size limit : Nat) (path : String) :
    (withTextOf size).StandsFor ⟨none, limit⟩ "/" path ↔ path = "/a.py" ∧ size ≤ limit := by
  have name : FileTree.pathBelow "/" ["a.py"] = "/a.py" := by decide +kernel
  have length : (⟨Array.replicate size 0⟩ : ByteArray).size = size := Array.size_replicate
  constructor
  · intro stands
    cases stands with
    | file found => cases (with_text_found size).symm.trans found
    | below found shows wants =>
        cases (with_text_found size).symm.trans found
        cases shows with
        | inside listed _ shows =>
            cases List.mem_singleton.1 listed
            cases shows
            exact ⟨name, length ▸ wants.fits⟩
  · rintro ⟨rfl, fits⟩
    rw [← name]
    refine .below (with_text_found size) (.inside List.mem_cons_self rfl (.here _)) ⟨?_, ?_⟩
    · exact ⟨.python, by decide +kernel, fun _ forced => nomatch forced⟩
    · rw [length]
      exact fits

end FileSystem

namespace Settings

theorem max_file_bytes_eq (settings : Settings) :
    settings.maxFileBytes? =
      if settings.maxFileSizeKb < 2 ^ 54 then some (1024 * settings.maxFileSizeKb) else none := by
  have size : UInt64.size = 1024 * 2 ^ 54 := rfl
  have fits : settings.maxFileSizeKb * 1024 < UInt64.size ↔ settings.maxFileSizeKb < 2 ^ 54 := by
    omega
  simp only [maxFileBytes?, fits, Nat.mul_comm]

end Settings

namespace CommandLine

theorem Session.require_run {Failure Result : Type} (wrap : Failure → CommandError)
    (result : Except Failure Result) (console : Console) :
    (Session.require wrap result).run.run console =
      (result.mapError fun failure => .error (wrap failure), console) := by
  cases result <;> rfl

/-- A size that fits is applied as it is set. One that does not fit ends the run, whether or not there
are any files. -/
theorem collect_sources_eq (settings : Settings) (forced : Option Language)
    (arguments : List String) (console : Console) :
    (collectSources settings forced arguments).run.run console =
      (if settings.maxFileSizeKb < 2 ^ 54 then
          (console.files.sources ⟨forced, 1024 * settings.maxFileSizeKb⟩ arguments).mapError
            fun error => .error (.pathNotFound error.path)
        else .error .overflow,
       console) := by
  rw [collectSources, settings.max_file_bytes_eq]
  split
  · exact Session.require_run _ _ console
  · rfl

end CommandLine

namespace Settings

open CommandLine

/-- Wherever a run with the smaller settings collects files, a run with the larger ones collects them
too. -/
def Admits (larger smaller : Settings) : Prop :=
  ∀ (forced : Option Language) (arguments found : List String) (console : Console),
    (collectSources smaller forced arguments).run.run console = (.ok found, console) →
      ∃ more, (collectSources larger forced arguments).run.run console = (.ok more, console) ∧
        (∀ path ∈ found, ∃ kept ∈ more, Path.same kept path = true) ∧
        found.length ≤ more.length

theorem collects_iff (settings : Settings) (forced : Option Language)
    (arguments found : List String) (console : Console) :
    (collectSources settings forced arguments).run.run console = (.ok found, console) ↔
      settings.maxFileSizeKb < 2 ^ 54 ∧
        console.files.sources ⟨forced, 1024 * settings.maxFileSizeKb⟩ arguments = .ok found := by
  rw [collect_sources_eq]
  refine Prod.mk_inj.trans ?_
  rw [and_iff_left rfl]
  split
  · cases console.files.sources ⟨forced, 1024 * settings.maxFileSizeKb⟩ arguments with
    | error error => simp [Except.mapError]
    | ok paths => simp_all [Except.mapError]
  · simp_all

theorem admits_iff (larger smaller : Settings) :
    larger.Admits smaller ↔ (smaller.maxFileSizeKb < 2 ^ 54 →
      larger.maxFileSizeKb < 2 ^ 54 ∧ smaller.maxFileSizeKb ≤ larger.maxFileSizeKb) := by
  constructor
  · intro admits fits
    -- A text of the very size that the smaller settings allow has to be found under the larger ones.
    let limit := 1024 * smaller.maxFileSizeKb
    let console : Console := ⟨FileSystem.withTextOf limit, [], []⟩
    have present : ∀ argument ∈ ["/"], ((FileSystem.withTextOf limit).find? argument).isSome :=
      List.forall_mem_singleton.2 rfl
    obtain ⟨few, sortedFew, standFew⟩ := FileSystem.sources_sorted _ ⟨none, limit⟩ present
    obtain ⟨more, collects, covers, -⟩ :=
      admits none _ _ console ((smaller.collects_iff _ _ _ console).2 ⟨fits, sortedFew⟩)
    obtain ⟨fitsToo, found⟩ := (larger.collects_iff _ _ _ _).1 collects
    obtain ⟨many, sortedMany, standMany⟩ :=
      FileSystem.sources_sorted _ ⟨none, 1024 * larger.maxFileSizeKb⟩ present
    cases found.symm.trans sortedMany
    have stands := (FileSystem.text_stands_iff _ limit "/a.py").2 ⟨rfl, le_rfl⟩
    obtain ⟨text, listed, -⟩ :=
      Path.sort_unique_covers ((standFew "/a.py").2 ⟨"/", List.mem_cons_self, stands⟩)
    obtain ⟨kept, stays, -⟩ := covers text listed
    obtain ⟨argument, given, standsToo⟩ := (standMany kept).1 (Path.mem_of_mem_sort_unique stays)
    cases List.mem_singleton.1 given
    have atMost := ((FileSystem.text_stands_iff _ _ _).1 standsToo).2
    exact ⟨fitsToo, Nat.le_of_mul_le_mul_left atMost (by decide)⟩
  · intro atLeast forced arguments found console collects
    obtain ⟨fits, yielded⟩ := (smaller.collects_iff _ _ _ _).1 collects
    obtain ⟨fitsToo, atMost⟩ := atLeast fits
    obtain ⟨more, yieldedToo, covers, fewer⟩ :=
      FileSystem.sources_of_higher_limit (Nat.mul_le_mul_left 1024 atMost) yielded
    exact ⟨more, (larger.collects_iff _ _ _ _).2 ⟨fitsToo, yieldedToo⟩, covers, fewer⟩

end Settings

namespace SettingsLoader

open CommandLine

variable {files : FileSystem} {loader : SettingsLoader} {workspace : String}
  {overrides : SettingsOverrides} {settings : Settings}

theorem valid_of_load (loaded : (loader.load files workspace overrides).1 = .ok settings) :
    settings.validate = .ok () := by
  rw [load] at loaded
  cases read : loader.globalLayer files with
  | error error =>
      rw [read] at loaded
      cases loaded
  | ok global =>
      obtain ⟨layer, after⟩ := global
      rw [read] at loaded
      obtain ⟨own, _, merged⟩ := exists_of_bind_ok loaded
      obtain ⟨_, valid, same⟩ := exists_of_bind_ok merged
      cases same
      exact valid

/-- Below 2⁵⁴, a run collects its files with the largest size as it is set, in bytes. From there on it
breaks off, although the settings are accepted. Settings admit whatever the smaller ones admit exactly if
the size is not below theirs and fits as well, unless the smaller ones admit nothing because theirs does
not fit. -/
theorem size_limit_exact_iff
    (loaded : (loader.load files workspace overrides).1 = .ok settings) :
    0 < settings.maxFileSizeKb ∧
    (settings.maxFileBytes? = some (1024 * settings.maxFileSizeKb) ↔
      settings.maxFileSizeKb < 2 ^ 54) ∧
    (∀ forced arguments console,
      (collectSources settings forced arguments).run.run console =
        (if settings.maxFileSizeKb < 2 ^ 54 then
            (console.files.sources ⟨forced, 1024 * settings.maxFileSizeKb⟩ arguments).mapError
              fun error => .error (.pathNotFound error.path)
          else .error .overflow,
         console)) ∧
    (∀ smaller : Settings, settings.Admits smaller ↔ (smaller.maxFileSizeKb < 2 ^ 54 →
      settings.maxFileSizeKb < 2 ^ 54 ∧ smaller.maxFileSizeKb ≤ settings.maxFileSizeKb)) ∧
    (settings.maxFileSizeKb < 2 ^ 54 → ∀ smaller : Settings,
      smaller.maxFileSizeKb ≤ settings.maxFileSizeKb → settings.Admits smaller) := by
  have positive : 0 < settings.maxFileSizeKb := by
    rcases settings.validate_cases with ⟨_, usable⟩ | ⟨⟨error, refused, _⟩, _⟩
    · exact Nat.pos_of_ne_zero fun zero => usable (Or.inr zero)
    · cases (valid_of_load loaded).symm.trans refused
  refine ⟨positive, ?exact, collect_sources_eq settings, settings.admits_iff, ?larger⟩
  case exact => simp [settings.max_file_bytes_eq]
  case larger =>
    intro fits smaller atMost
    exact (settings.admits_iff smaller).2 fun _ => ⟨fits, atMost⟩

/-- A workspace with a text of one byte, with a document without patterns, and with a file that sets
the largest size of a text. -/
def workspaceWithLimit (limit : String) : FileSystem where
  top := .directory
    [("work", .directory
        [(".codeweave", .directory [("config.toml",
            .file ("[patterns]\npaths = [\"p.json\"]\n" ++
              "[processing]\nmax_file_size_kb = " ++ limit ++ "\n").toUTF8)]),
         ("p.json", .file "[]".toUTF8), ("a.py", .file "x".toUTF8)])]
  current := ["work"]

/-- A run over that workspace; without patterns, neither a grammar nor an engine is asked for much. -/
def runOf (limit : String) : Outcome :=
  CommandLine.execute ⟨none, none, fun _ _ => none, fun _ => none⟩ (workspaceWithLimit limit)
    ["run", "--json", "/work"]

/-- The largest size of all that fits admits whatever any settings admit. -/
theorem largest_exact_limit : ∃ settings,
    ((ofHome none).load (workspaceWithLimit "18014398509481983") "/work" default).1 =
      .ok settings ∧
    settings.maxFileBytes? = some (1024 * settings.maxFileSizeKb) ∧
    ∀ smaller : Settings, settings.Admits smaller := by
  have loaded : ((ofHome none).load (workspaceWithLimit "18014398509481983") "/work" default).1 =
      .ok { Settings.default with patternPaths := ["p.json"], maxFileSizeKb := 2 ^ 54 - 1 } := by
    decide +kernel
  obtain ⟨_, exact_iff, _, admits, _⟩ := size_limit_exact_iff loaded
  refine ⟨_, loaded, exact_iff.2 (by decide), fun smaller => (admits smaller).2 fun fits => ?_⟩
  exact ⟨by decide, Nat.le_pred_of_lt fits⟩

/-- The next size is accepted too, and then a run breaks off with nothing printed. A size of 1 admits the
text of one byte. -/
theorem next_limit_aborts : ∃ settings,
    ((ofHome none).load (workspaceWithLimit "18014398509481984") "/work" default).1 =
      .ok settings ∧
    settings.maxFileSizeKb = 2 ^ 54 ∧ settings.maxFileBytes? = none ∧
    (runOf "18014398509481984").ending.exitCode = 101 ∧
    (runOf "18014398509481984").console.printed = [] ∧
    (workspaceWithLimit "18014398509481984").sources ⟨none, 1024⟩ ["/work"] =
      .ok ["/work/a.py"] := by
  have text : ["/work"].mapM ((workspaceWithLimit "18014398509481984").sourcesAt ⟨none, 1024⟩) =
      .ok [["/work/a.py"]] := by decide +kernel
  refine ⟨{ Settings.default with patternPaths := ["p.json"], maxFileSizeKb := 2 ^ 54 },
    by decide +kernel, rfl, rfl, by decide +kernel, by decide +kernel, ?_⟩
  rw [FileSystem.sources, text]
  exact congrArg Except.ok (congrArg Path.dropRepeats (List.mergeSort_singleton _))

end SettingsLoader

end SyntaxGraph
