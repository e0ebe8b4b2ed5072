import SyntaxGraph.Path

/-!
What a relative path becomes behind a base. Its names follow those of the base, and its leading dot is
lost. So two paths lead to one place behind a base if they are spellings of one path, if they differ
by a leading dot, or if one of them is the other one's place written in full.
-/

set_option autoImplicit false

namespace SyntaxGraph.Path

-- Segments

theorem segments_ne_nil (characters : List Char) : segments characters ≠ [] := by
  cases characters with
  | nil => exact List.cons_ne_nil _ _
  | cons character rest =>
      rw [segments]
      cases segments rest with
      | nil => exact List.cons_ne_nil _ _
      | cons first others =>
          dsimp only
          split
          · exact List.cons_ne_nil _ _
          · exact List.cons_ne_nil _ _

theorem segments_cons {character : Char} {rest first : List Char} {others : List (List Char)}
    (later : segments rest = first :: others) :
    segments (character :: rest) =
      if character = '/' then [] :: first :: others else (character :: first) :: others := by
  rw [segments, later]

theorem segments_append_slash (left right : List Char) :
    segments (left ++ '/' :: right) = segments left ++ segments right := by
  induction left with
  | nil =>
      obtain ⟨first, others, later⟩ := List.exists_cons_of_ne_nil (segments_ne_nil right)
      rw [List.nil_append, segments_cons later, later, if_pos rfl]
      rfl
  | cons character left induction =>
      obtain ⟨first, others, later⟩ := List.exists_cons_of_ne_nil (segments_ne_nil left)
      rw [later, List.cons_append] at induction
      rw [List.cons_append, segments_cons induction, segments_cons later]
      split
      · rfl
      · rfl

-- Absolute paths

theorem join_of_absolute (base : String) {path : String} (absolute : isAbsolute path) :
    join base path = path := by
  unfold join
  rw [if_pos absolute]

theorem absolute_append {path : String} (rest : String) (absolute : isAbsolute path) :
    isAbsolute (path ++ rest) := by
  simp only [isAbsolute, String.toList_append, decide_eq_true_eq] at absolute ⊢
  rw [List.head?_append, absolute]
  rfl

theorem absolute_join {base : String} (path : String) (absolute : isAbsolute base) :
    isAbsolute (join base path) := by
  rw [join]
  split
  next own => exact own
  next =>
    split
    next => exact absolute_append path absolute
    next =>
      rw [String.append_assoc]
      exact absolute_append ("/" ++ path) absolute

theorem join_join_of_absolute (outer path : String) {base : String} (absolute : isAbsolute base) :
    join outer (join base path) = join base path :=
  join_of_absolute outer (absolute_join path absolute)

-- Relative paths

theorem join_eq_append (base : String) {path : String} (relative : isAbsolute path = false) :
    ∃ rest, join base path = base ++ rest := by
  rw [join, if_neg (by rw [relative]; exact Bool.false_ne_true)]
  split
  · exact ⟨path, rfl⟩
  · exact ⟨"/" ++ path, String.append_assoc⟩

theorem absolute_append_eq {base : String} (rest : String) (named : base ≠ "") :
    isAbsolute (base ++ rest) = isAbsolute base := by
  have present : base.toList ≠ [] := by simpa using named
  obtain ⟨first, others, opened⟩ := List.exists_cons_of_ne_nil present
  rw [isAbsolute, isAbsolute, String.toList_append, opened, List.cons_append, List.head?_cons,
    List.head?_cons]

/-- The segments of a relative path follow those of its base, where a slash that ends the base
counts for nothing. -/
theorem segments_join {base path : String} (relative : isAbsolute path = false)
    (named : base ≠ "") :
    ∃ start, segments (join base path).toList = start ++ segments path.toList ∧
      start ≠ [] ∧ (segments base.toList = start ∨ segments base.toList = start ++ [[]]) := by
  have present : base.isEmpty = false := by simpa using named
  rw [join, if_neg (by rw [relative]; exact Bool.false_ne_true), present, Bool.false_or]
  split
  next closed =>
    -- The base brings the slash along.
    rw [decide_eq_true_iff] at closed
    obtain ⟨start, opened⟩ := List.getLast?_eq_some_iff.1 closed
    refine ⟨segments start, ?_, segments_ne_nil start, Or.inr ?_⟩
    · rw [String.toList_append, opened, List.append_assoc, List.singleton_append,
        segments_append_slash]
    · rw [opened, segments_append_slash]
      rfl
  next =>
    refine ⟨segments base.toList, ?_, segments_ne_nil _, Or.inl rfl⟩
    rw [String.toList_append, String.toList_append, List.append_assoc]
    exact segments_append_slash base.toList path.toList

/-- Components that only stand in front: the root and a leading dot. -/
def Component.isMark : Component → Bool
  | .root | .here => true
  | .up | .name _ => false

def leading (path : String) : List Component :=
  if isAbsolute path then [.root]
  else if (segments path.toList).head? = some ['.'] then [.here] else []

def inner (path : String) : List Component := (segments path.toList).filterMap componentOf

theorem components_eq (path : String) : components path = leading path ++ inner path := rfl

theorem leading_cases (path : String) :
    isAbsolute path = true ∧ leading path = [.root] ∨
      isAbsolute path = false ∧ (leading path = [.here] ∨ leading path = []) := by
  rw [leading]
  cases isAbsolute path with
  | true => exact Or.inl ⟨rfl, rfl⟩
  | false =>
      refine Or.inr ⟨rfl, ?_⟩
      by_cases dot : (segments path.toList).head? = some ['.']
      · exact Or.inl (by simp [dot])
      · exact Or.inr (by simp [dot])

theorem inner_unmarked {path : String} {component : Component} (listed : component ∈ inner path) :
    component.isMark = false := by
  obtain ⟨segment, _, stands⟩ := List.mem_filterMap.1 listed
  rw [componentOf] at stands
  split at stands
  · cases stands
  · split at stands
    · cases stands
      rfl
    · cases stands
      rfl

theorem leading_marked {path : String} {component : Component}
    (listed : component ∈ leading path) : component.isMark = true := by
  rcases leading_cases path with ⟨_, same⟩ | ⟨_, same | same⟩
  · rw [same, List.mem_singleton] at listed
    rw [listed]
    rfl
  · rw [same, List.mem_singleton] at listed
    rw [listed]
    rfl
  · rw [same] at listed
    cases listed

theorem inner_eq_filter (path : String) :
    (components path).filter (fun component => !component.isMark) = inner path := by
  rw [components_eq, List.filter_append, List.filter_eq_nil_iff.2, List.nil_append,
    List.filter_eq_self.2]
  · intro component listed
    rw [inner_unmarked listed]
    rfl
  · intro component listed
    rw [leading_marked listed]
    exact Bool.false_ne_true

theorem absolute_iff_root (path : String) : isAbsolute path = true ↔ .root ∈ components path := by
  have apart : Component.root ∉ inner path := fun listed => nomatch inner_unmarked listed
  rw [components_eq, List.mem_append, or_iff_left apart]
  rcases leading_cases path with ⟨absolute, same⟩ | ⟨relative, same | same⟩
  · simp [absolute, same]
  · simp [relative, same]
  · simp [relative, same]

theorem absolute_eq_of_components {path other : String}
    (same : components path = components other) : isAbsolute path = isAbsolute other := by
  rw [Bool.eq_iff_iff, absolute_iff_root, absolute_iff_root, same]

theorem components_join {base path : String} (relative : isAbsolute path = false)
    (named : base ≠ "") : components (join base path) = components base ++ inner path := by
  obtain ⟨rest, joined⟩ := join_eq_append base relative
  obtain ⟨start, whole, present, opened⟩ := segments_join relative named
  obtain ⟨first, others, rfl⟩ := List.exists_cons_of_ne_nil present
  have fronts : leading (join base path) = leading base := by
    rw [leading, leading, whole, joined, absolute_append_eq rest named, List.cons_append,
      List.head?_cons]
    rcases opened with same | same
    · rw [same, List.head?_cons]
    · rw [same, List.cons_append, List.head?_cons]
  have names : inner (join base path) = inner base ++ inner path := by
    rw [inner, inner, inner, whole, List.filterMap_append]
    rcases opened with same | same
    · rw [same]
    · have nothing : [[]].filterMap componentOf = [] := rfl
      rw [same, List.filterMap_append, nothing, List.append_nil]
  rw [components_eq, components_eq, fronts, names, List.append_assoc]

/-- A second name for what a relative path leads to behind a base: its place written in full, or,
unless the base is empty, the same path without its leading dot. -/
def SecondName (base path other : String) : Prop :=
  isAbsolute path = false ∧
    (isAbsolute other = true ∧ components (join base path) = components other ∨
      isAbsolute other = false ∧ base ≠ "" ∧ components path = .here :: components other)

instance (base path other : String) : Decidable (SecondName base path other) :=
  inferInstanceAs (Decidable (_ ∧ _))

theorem SecondName.differs {base path other : String} (second : SecondName base path other) :
    components path ≠ components other := by
  obtain ⟨relative, ⟨absolute, _⟩ | ⟨_, _, dotted⟩⟩ := second
  · intro same
    rw [absolute_eq_of_components same, absolute] at relative
    cases relative
  · rw [dotted]
    exact List.cons_ne_self _ _

/-- Relative paths lead to one place if they are the same but for a leading dot. -/
theorem join_relative_same_iff {base path other : String} (named : base ≠ "")
    (relative : isAbsolute path = false) (otherRelative : isAbsolute other = false) :
    components (join base path) = components (join base other) ↔
      components path = components other ∨ components path = .here :: components other ∨
        components other = .here :: components path := by
  rw [components_join relative named, components_join otherRelative named,
    List.append_right_inj]
  constructor
  · intro names
    rw [components_eq, components_eq, names]
    rcases leading_cases path with ⟨absolute, _⟩ | ⟨_, same | same⟩
    · rw [absolute] at relative
      cases relative
    · rcases leading_cases other with ⟨absolute, _⟩ | ⟨_, also | also⟩
      · rw [absolute] at otherRelative
        cases otherRelative
      · exact Or.inl (by rw [same, also])
      · exact Or.inr (Or.inl (by rw [same, also]; rfl))
    · rcases leading_cases other with ⟨absolute, _⟩ | ⟨_, also | also⟩
      · rw [absolute] at otherRelative
        cases otherRelative
      · exact Or.inr (Or.inr (by rw [same, also]; rfl))
      · exact Or.inl (by rw [same, also])
  · intro alike
    rw [← inner_eq_filter path, ← inner_eq_filter other]
    rcases alike with same | dotted | dotted
    · rw [same]
    · rw [dotted]
      rfl
    · rw [dotted]
      rfl

/-- Behind a base, the second names are what makes one path of two. -/
theorem join_same_iff (base path other : String) :
    components (join base path) = components (join base other) ↔
      components path = components other ∨ SecondName base path other ∨
        SecondName base other path := by
  cases absolute : isAbsolute path with
  | true =>
      rw [join_of_absolute base absolute]
      cases otherAbsolute : isAbsolute other with
      | true =>
          rw [join_of_absolute base otherAbsolute]
          simp [SecondName, absolute, otherAbsolute]
      | false =>
          have apart : components path ≠ components other :=
            mt absolute_eq_of_components (by simp [absolute, otherAbsolute])
          simp [SecondName, absolute, otherAbsolute, apart, eq_comm]
  | false =>
      cases otherAbsolute : isAbsolute other with
      | true =>
          have apart : components path ≠ components other :=
            mt absolute_eq_of_components (by simp [absolute, otherAbsolute])
          rw [join_of_absolute base otherAbsolute]
          simp [SecondName, absolute, otherAbsolute, apart]
      | false =>
          by_cases named : base = ""
          · simp [SecondName, absolute, otherAbsolute, named, join]
          · rw [join_relative_same_iff named absolute otherAbsolute]
            simp [SecondName, absolute, otherAbsolute, named]

end SyntaxGraph.Path
