import SyntaxGraph.Files.Sources

/-!
The files below a directory. The listing has exactly the files that visible names lead to, each under
its path.
-/

set_option autoImplicit false

namespace SyntaxGraph

namespace FileTree

/-- Names that lead to a file of a tree, none of them hidden. -/
inductive Shows : FileTree → List String → ByteArray → Prop
  | here (content : ByteArray) : Shows (.file content) [] content
  | inside {entries : List (String × FileTree)} {name : String} {tree : FileTree}
      {names : List String} {content : ByteArray} (listed : (name, tree) ∈ entries)
      (visible : isHidden name = false) (shows : Shows tree names content) :
      Shows (.directory entries) (name :: names) content

def pathBelow (path : String) (names : List String) : String := names.foldl Path.join path

mutual

theorem mem_files_below (path found : String) (content : ByteArray) (tree : FileTree) :
    (found, content) ∈ tree.filesBelow path ↔
      ∃ names, tree.Shows names content ∧ found = pathBelow path names := by
  cases tree with
  | file own =>
      rw [filesBelow, List.mem_singleton]
      constructor
      · intro same
        cases same
        exact ⟨[], .here content, rfl⟩
      · intro ⟨names, shows, same⟩
        cases shows
        rw [same]
        rfl
  | directory entries =>
      rw [filesBelow, mem_entries_below path found content entries]
      constructor
      · intro ⟨name, tree, names, listed, visible, shows, same⟩
        exact ⟨name :: names, .inside listed visible shows, same⟩
      · intro ⟨names, shows, same⟩
        cases shows with
        | inside listed visible shows => exact ⟨_, _, _, listed, visible, shows, same⟩
  | link | special =>
      rw [filesBelow]
      constructor
      · intro listed
        cases listed
      · intro ⟨_, shows, _⟩
        cases shows

theorem mem_entries_below (path found : String) (content : ByteArray)
    (entries : List (String × FileTree)) :
    (found, content) ∈ entriesBelow path entries ↔
      ∃ name tree names, (name, tree) ∈ entries ∧ isHidden name = false ∧
        tree.Shows names content ∧ found = pathBelow path (name :: names) := by
  cases entries with
  | nil => simp [entriesBelow]
  | cons entry rest =>
      obtain ⟨name, tree⟩ := entry
      rw [entriesBelow, List.mem_append, mem_entries_below path found content rest]
      constructor
      · rintro (here | ⟨other, otherTree, names, listed, visible, shows, same⟩)
        · cases hidden : isHidden name with
          | true =>
              rw [hidden, if_pos rfl] at here
              cases here
          | false =>
              rw [hidden, if_neg Bool.false_ne_true,
                mem_files_below (Path.join path name) found content tree] at here
              obtain ⟨names, shows, same⟩ := here
              exact ⟨name, tree, names, List.mem_cons_self, hidden, shows, same⟩
        · exact ⟨other, otherTree, names, List.mem_cons_of_mem _ listed, visible, shows, same⟩
      · intro ⟨other, otherTree, names, listed, visible, shows, same⟩
        rcases List.mem_cons.1 listed with first | later
        · cases first
          refine Or.inl ?_
          rw [visible, if_neg Bool.false_ne_true,
            mem_files_below (Path.join path name) found content tree]
          exact ⟨names, shows, same⟩
        · exact Or.inr ⟨other, otherTree, names, later, visible, shows, same⟩

end

end FileTree

end SyntaxGraph
