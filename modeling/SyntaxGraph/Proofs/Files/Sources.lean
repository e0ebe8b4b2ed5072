import SyntaxGraph.Proofs.Files.Listing
import SyntaxGraph.Proofs.Files.PathOrder

/-!
What a run works on. Its sources are the files that its arguments stand for, in the order of paths and
one spelling of each, and the order and the repetition of the arguments leave no trace in them.
-/

set_option autoImplicit false

namespace SyntaxGraph

/-- A file that is wanted below a directory. -/
structure SourceFilter.Wants (filter : SourceFilter) (path : String) (content : ByteArray) :
    Prop where
  /-- Its language is known, and it is the forced one if there is one. -/
  supported : ∃ language, Language.ofPath? path = some language ∧
    ∀ forced, filter.language = some forced → language = forced
  fits : content.size ≤ filter.maxBytes

theorem SourceFilter.accepts_iff (filter : SourceFilter) (path : String) (content : ByteArray) :
    filter.accepts path content = true ↔ filter.Wants path content := by
  have parts : filter.Wants path content ↔
      (∃ language, Language.ofPath? path = some language ∧
        ∀ forced, filter.language = some forced → language = forced) ∧
      content.size ≤ filter.maxBytes :=
    ⟨fun wants => ⟨wants.supported, wants.fits⟩, fun ⟨supported, fits⟩ => ⟨supported, fits⟩⟩
  rw [parts, accepts, Bool.and_eq_true, decide_eq_true_iff]
  cases filter.language with
  | none => simp [Option.isSome_iff_exists]
  | some forced => simp

namespace FileSystem

open FileTree (pathBelow)

/-- The paths that an argument stands for: its own if a file is there, whatever it is like, and those
of the wanted files below it if a directory is there. -/
inductive StandsFor (files : FileSystem) (filter : SourceFilter) (argument : String) :
    String → Prop
  | file {content : ByteArray} (found : files.find? argument = some (.file content)) :
      StandsFor files filter argument argument
  | below {entries : List (String × FileTree)} {names : List String} {content : ByteArray}
      (found : files.find? argument = some (.directory entries))
      (shows : (FileTree.directory entries).Shows names content)
      (wants : filter.Wants (pathBelow argument names) content) :
      StandsFor files filter argument (pathBelow argument names)

variable (files : FileSystem) (filter : SourceFilter)

theorem sources_at_found {argument : String} (present : (files.find? argument).isSome) :
    ∃ found, files.sourcesAt filter argument = .ok found ∧
      ∀ path, path ∈ found ↔ files.StandsFor filter argument path := by
  obtain ⟨tree, there⟩ := Option.isSome_iff_exists.1 present
  rw [sourcesAt, there]
  cases tree with
  | file content =>
      refine ⟨[argument], rfl, fun path => ?_⟩
      rw [List.mem_singleton]
      constructor
      · rintro rfl
        exact .file there
      · intro stands
        cases stands with
        | file => rfl
        | below found => rw [found] at there; cases there
  | directory entries =>
      refine ⟨_, rfl, fun path => ?_⟩
      simp only [List.mem_map, List.mem_filter, Prod.exists, FileTree.mem_files_below,
        SourceFilter.accepts_iff]
      constructor
      · rintro ⟨_, content, ⟨⟨names, shows, rfl⟩, wants⟩, rfl⟩
        exact .below there shows wants
      · intro stands
        cases stands with
        | file found => rw [found] at there; cases there
        | below found shows wants =>
            rw [found] at there
            cases there
            exact ⟨_, _, ⟨⟨_, shows, rfl⟩, wants⟩, rfl⟩
  | link | special =>
      -- A path leads to a file or a directory, or nowhere.
      obtain ⟨_, kind⟩ := Option.filter_eq_some_iff.1 there
      cases kind

theorem sources_at_each {arguments : List String}
    (present : ∀ argument ∈ arguments, (files.find? argument).isSome) :
    ∃ found, arguments.mapM (files.sourcesAt filter) = .ok found ∧
      ∀ path, path ∈ found.flatten ↔
        ∃ argument ∈ arguments, files.StandsFor filter argument path := by
  induction arguments with
  | nil => exact ⟨[], rfl, by simp⟩
  | cons argument rest induction =>
      obtain ⟨here, behind⟩ := List.forall_mem_cons.1 present
      obtain ⟨first, collected, stands⟩ := sources_at_found files filter here
      obtain ⟨others, continued, stand⟩ := induction behind
      refine ⟨first :: others, ?_, fun path => ?_⟩
      · rw [List.mapM_cons, collected, continued]
        rfl
      · rw [List.flatten_cons, List.mem_append, stands, stand, List.exists_mem_cons_iff]

theorem sources_sorted {arguments : List String}
    (present : ∀ argument ∈ arguments, (files.find? argument).isSome) :
    ∃ listed, files.sources filter arguments = .ok (Path.sortUnique listed) ∧
      ∀ path, path ∈ listed ↔ ∃ argument ∈ arguments, files.StandsFor filter argument path := by
  obtain ⟨found, collected, stands⟩ := sources_at_each files filter present
  refine ⟨found.flatten, ?_, stands⟩
  rw [sources, collected]
  rfl

/-- The sources of existing arguments increase in the order of paths, and they are the paths that the
arguments stand for, up to spelling. Arguments in another order, or repeated, have the same
sources. -/
theorem sources_list_wanted_files (arguments : List String)
    (present : ∀ argument ∈ arguments, (files.find? argument).isSome) :
    ∃ found, files.sources filter arguments = .ok found ∧
      found.Pairwise (fun left right => Path.before left right = true) ∧
      found.Pairwise (fun left right => Path.same left right = false) ∧
      (∀ path ∈ found, ∃ argument ∈ arguments, files.StandsFor filter argument path) ∧
      (∀ argument ∈ arguments, ∀ path, files.StandsFor filter argument path →
        ∃ kept ∈ found, Path.same kept path = true) ∧
      ∀ rearranged : List String, (∀ argument, argument ∈ rearranged ↔ argument ∈ arguments) →
        ∃ others, files.sources filter rearranged = .ok others ∧
          others.map Path.components = found.map Path.components := by
  obtain ⟨listed, sorted, stands⟩ := sources_sorted files filter present
  have increasing := Path.sort_unique_increasing listed
  refine ⟨Path.sortUnique listed, sorted, ?increases, ?distinct, ?nothingElse, ?complete,
    ?rearranged⟩
  case increases => exact increasing.imp Path.before_iff.2
  case distinct =>
    refine increasing.imp fun less => ?_
    rw [← Bool.not_eq_true, Path.same_iff]
    exact less.ne
  case nothingElse => exact fun path kept => (stands path).1 (Path.mem_of_mem_sort_unique kept)
  case complete =>
    intro argument given path stood
    obtain ⟨kept, stays, alike⟩ :=
      Path.sort_unique_covers ((stands path).2 ⟨argument, given, stood⟩)
    exact ⟨kept, stays, Path.same_iff.2 alike⟩
  case rearranged =>
    intro rearranged sameArguments
    obtain ⟨others, sortedOthers, standOthers⟩ := sources_sorted files filter
      fun argument given => present argument ((sameArguments argument).1 given)
    refine ⟨Path.sortUnique others, sortedOthers, ?_⟩
    have samePaths : ∀ path, path ∈ others ↔ path ∈ listed := by
      intro path
      rw [stands, standOthers]
      exact exists_congr fun argument => and_congr_left' (sameArguments argument)
    -- Components are told apart by their places.
    apply List.map_injective_iff.2 (List.map_injective_iff.2 Path.Component.place_injective)
    rw [List.map_map, List.map_map]
    apply Path.sort_unique_places
    intro position
    simp only [List.mem_map, samePaths]

/-- A directory with another one inside, with hidden entries, with a text in no known language, with
files of one and of nine bytes, and with what is no file: a link to one, and a pipe. -/
def nestedDirectories : FileSystem where
  top := .directory
    [("d", .directory
        [("a", .directory [("z.rs", .file "s".toUTF8), (".y.rs", .file "s".toUTF8)]),
         (".cache", .directory [("c.py", .file "x".toUTF8)]), ("b.py", .file "x".toUTF8),
         ("large.py", .file "value = 1".toUTF8), ("notes.txt", .file "n".toUTF8),
         ("alias.py", .link "b.py"), ("pipe.py", .special)])]
  current := []

/-- The hidden text is there because it is named, beside what is visible below the two directories.
What is below both is there once. The outer directory may as well be named first, and twice. -/
theorem nested_directories_sources :
    ∃ found, nestedDirectories.sources ⟨none, 8⟩ ["d/a/.y.rs", "d/a", "d"] = .ok found ∧
      found = ["d/a/.y.rs", "d/a/z.rs", "d/b.py"] ∧
      ∃ others, nestedDirectories.sources ⟨none, 8⟩ ["d", "d/a/.y.rs", "d", "d/a"] = .ok others ∧
        others.map Path.components = found.map Path.components := by
  obtain ⟨found, yielded, _, _, _, _, rearranged⟩ :=
    nestedDirectories.sources_list_wanted_files ⟨none, 8⟩ ["d/a/.y.rs", "d/a", "d"]
      (by decide +kernel)
  have collected : ["d/a/.y.rs", "d/a", "d"].mapM (nestedDirectories.sourcesAt ⟨none, 8⟩) =
      .ok [["d/a/.y.rs"], ["d/a/z.rs"], ["d/a/z.rs", "d/b.py"]] := by decide +kernel
  refine ⟨found, yielded, ?_, ?_⟩
  · rw [sources, collected] at yielded
    rw [← Except.ok.inj yielded, Path.sortUnique, List.mergeSort_of_pairwise (by decide +kernel)]
    decide +kernel
  · exact rearranged ["d", "d/a/.y.rs", "d", "d/a"] (by simp [or_left_comm, or_comm])

end FileSystem

end SyntaxGraph
