import Mathlib.Data.List.Infix
import SyntaxGraph.Text.Search

/-!
Occurrences of a marker in a text. The first one parts a text into what stands before it and what
stands behind it. Passing one occurrence after another, from the left and without overlaps, leads
behind the last of them. An empty marker is not looked for.
-/

set_option autoImplicit false

namespace SyntaxGraph.Text

/-- The marker stands between the two parts, and nowhere further to the left. -/
structure FirstBetween (marker text before after : List Char) : Prop where
  split : text = before ++ (marker ++ after)
  earliest : ∀ other behind, text = other ++ (marker ++ behind) → before.length ≤ other.length

/-- The marker is looked for and occurs. -/
def Occurs (marker text : List Char) : Prop := marker ≠ [] ∧ marker <:+: text

/-- What stands before the first occurrence of a marker, or all of the text where there is none. -/
inductive PartBefore (marker text : List Char) : List Char → Prop
  | found {before after : List Char} (nonempty : marker ≠ [])
      (first : FirstBetween marker text before after) : PartBefore marker text before
  | absent (missing : ¬Occurs marker text) : PartBefore marker text text

/-- What stands behind the last of the occurrences that are passed from the left, or all of the text
where there is none. -/
inductive PartBehind (marker : List Char) : List Char → List Char → Prop
  | found {text before after rest : List Char} (nonempty : marker ≠ [])
      (first : FirstBetween marker text before after) (behind : PartBehind marker after rest) :
      PartBehind marker text rest
  | absent {text : List Char} (missing : ¬Occurs marker text) : PartBehind marker text text

variable {marker text before after : List Char}

theorem FirstBetween.occurs (first : FirstBetween marker text before after)
    (nonempty : marker ≠ []) : Occurs marker text :=
  ⟨nonempty, before, after, by rw [first.split, List.append_assoc]⟩

theorem first_between_at_start (after : List Char) :
    FirstBetween marker (marker ++ after) [] after :=
  ⟨rfl, fun _ _ _ => Nat.zero_le _⟩

/-- A character at which the marker does not stand belongs to what stands before it. -/
theorem FirstBetween.behind_character {character : Char}
    (elsewhere : ¬marker <+: character :: text) (first : FirstBetween marker text before after) :
    FirstBetween marker (character :: text) (character :: before) after := by
  refine ⟨by rw [first.split, List.cons_append], ?_⟩
  intro other behind split
  cases other with
  | nil => exact absurd ⟨behind, split.symm⟩ elsewhere
  | cons head rest =>
      rw [List.cons_append] at split
      exact Nat.succ_le_succ (first.earliest rest behind (List.cons.inj split).2)

theorem FirstBetween.cases_on_character {character : Char}
    (first : FirstBetween marker (character :: text) before after) :
    (before = [] ∧ character :: text = marker ++ after) ∨
      ¬marker <+: character :: text ∧
        ∃ rest, before = character :: rest ∧ FirstBetween marker text rest after := by
  obtain ⟨split, earliest⟩ := first
  cases before with
  | nil => exact Or.inl ⟨rfl, split⟩
  | cons head rest =>
      rw [List.cons_append] at split
      obtain ⟨rfl, tail⟩ := List.cons.inj split
      refine Or.inr ⟨?_, rest, rfl, tail, ?_⟩
      · rintro ⟨behind, same⟩
        exact absurd (earliest [] behind same.symm) (by simp)
      · intro other behind same
        have shifted := earliest (character :: other) behind (by rw [same, List.cons_append])
        exact Nat.le_of_succ_le_succ shifted

theorem not_occurs_nil (marker : List Char) : ¬Occurs marker [] :=
  fun occurs => occurs.1 (List.infix_nil.1 occurs.2)

theorem occurs_cons_iff {character : Char} :
    Occurs marker (character :: text) ↔
      marker ≠ [] ∧ (marker <+: character :: text ∨ Occurs marker text) := by
  unfold Occurs
  rw [List.infix_cons_iff]
  tauto

-- The first occurrence

theorem before_first_of_first (nonempty : marker ≠ [])
    (first : FirstBetween marker text before after) : beforeFirst marker text = before := by
  induction text generalizing before with
  | nil =>
      have absent := not_occurs_nil marker (first.occurs nonempty)
      exact absent.elim
  | cons character rest induction =>
      rw [beforeFirst]
      rcases first.cases_on_character with ⟨rfl, split⟩ | ⟨elsewhere, inner, rfl, later⟩
      · rw [if_pos (List.isPrefixOf_iff_prefix.2 ⟨after, split.symm⟩)]
      · rw [if_neg (fun here => elsewhere (List.isPrefixOf_iff_prefix.1 here)), induction later]

theorem before_first_of_absent (nonempty : marker ≠ []) (missing : ¬Occurs marker text) :
    beforeFirst marker text = text := by
  induction text with
  | nil => rfl
  | cons character rest induction =>
      rw [occurs_cons_iff, not_and, not_or] at missing
      obtain ⟨elsewhere, later⟩ := missing nonempty
      rw [beforeFirst, if_neg (fun here => elsewhere (List.isPrefixOf_iff_prefix.1 here)),
        induction later]

theorem exists_first_of_occurs (occurs : Occurs marker text) :
    ∃ before after, FirstBetween marker text before after := by
  induction text with
  | nil => exact absurd occurs (not_occurs_nil marker)
  | cons character rest induction =>
      obtain ⟨_, here | later⟩ := occurs_cons_iff.1 occurs
      · obtain ⟨after, split⟩ := here
        rw [← split]
        exact ⟨[], after, first_between_at_start after⟩
      · by_cases here : marker <+: character :: rest
        · obtain ⟨after, split⟩ := here
          rw [← split]
          exact ⟨[], after, first_between_at_start after⟩
        · obtain ⟨before, after, first⟩ := induction later
          exact ⟨character :: before, after, first.behind_character here⟩

theorem part_before_iff (nonempty : marker ≠ []) {part : List Char} :
    PartBefore marker text part ↔ part = beforeFirst marker text := by
  have sound : ∀ {part}, PartBefore marker text part → part = beforeFirst marker text := by
    intro part stands
    cases stands with
    | found nonempty first => exact (before_first_of_first nonempty first).symm
    | absent missing => exact (before_first_of_absent nonempty missing).symm
  refine ⟨sound, ?_⟩
  rintro rfl
  by_cases occurs : Occurs marker text
  · obtain ⟨before, after, first⟩ := exists_first_of_occurs occurs
    rw [before_first_of_first nonempty first]
    exact .found nonempty first
  · rw [before_first_of_absent nonempty occurs]
    exact .absent occurs

-- The pieces between occurrences

theorem pieces_passing (separator passed rest : List Char) :
    piecesFrom separator passed.length (passed ++ rest) = piecesBetween separator rest := by
  induction passed with
  | nil => rfl
  | cons character passed induction => exact induction

theorem pieces_of_first {separator : List Char} (nonempty : separator ≠ [])
    (first : FirstBetween separator text before after) :
    piecesBetween separator text = before :: piecesBetween separator after := by
  induction text generalizing before with
  | nil =>
      have absent := not_occurs_nil separator (first.occurs nonempty)
      exact absent.elim
  | cons character rest induction =>
      rw [piecesBetween, piecesFrom]
      rcases first.cases_on_character with ⟨rfl, split⟩ | ⟨elsewhere, inner, rfl, later⟩
      · rw [if_pos (List.isPrefixOf_iff_prefix.2 ⟨after, split.symm⟩)]
        obtain ⟨head, tail, rfl⟩ := List.exists_cons_of_ne_nil nonempty
        rw [List.cons_append] at split
        rw [(List.cons.inj split).2, List.length_cons, Nat.add_sub_cancel, pieces_passing]
      · have found : piecesFrom separator 0 rest = _ := induction later
        rw [if_neg (fun here => elsewhere (List.isPrefixOf_iff_prefix.1 here)), found]

theorem pieces_of_absent {separator : List Char} (nonempty : separator ≠ [])
    (missing : ¬Occurs separator text) : piecesBetween separator text = [text] := by
  induction text with
  | nil => rfl
  | cons character rest induction =>
      rw [occurs_cons_iff, not_and, not_or] at missing
      obtain ⟨elsewhere, later⟩ := missing nonempty
      have single : piecesFrom separator 0 rest = [rest] := induction later
      rw [piecesBetween, piecesFrom,
        if_neg (fun here => elsewhere (List.isPrefixOf_iff_prefix.1 here)), single]

theorem last_piece_of_part_behind {rest : List Char} (nonempty : marker ≠ [])
    (stands : PartBehind marker text rest) : (piecesBetween marker text).getLast? = some rest := by
  induction stands with
  | found _ first behind induction =>
      rw [pieces_of_first nonempty first]
      rw [List.getLast?_cons, induction]
      rfl
  | absent missing => rw [pieces_of_absent nonempty missing, List.getLast?_singleton]

/-- Passing occurrences comes to an end, since each one takes characters away. -/
theorem exists_part_behind (marker text : List Char) : ∃ rest, PartBehind marker text rest := by
  induction size : text.length using Nat.strong_induction_on generalizing text with
  | _ count induction =>
      by_cases occurs : Occurs marker text
      · obtain ⟨before, after, first⟩ := exists_first_of_occurs occurs
        have shorter : after.length < count := by
          have taken := List.length_pos_iff.2 occurs.1
          rw [← size, first.split, List.length_append, List.length_append]
          omega
        obtain ⟨rest, behind⟩ := induction after.length shorter after rfl
        exact ⟨rest, .found occurs.1 first behind⟩
      · exact ⟨text, .absent occurs⟩

theorem part_behind_iff (nonempty : marker ≠ []) {part : List Char} :
    PartBehind marker text part ↔ (piecesBetween marker text).getLast? = some part := by
  constructor
  · exact last_piece_of_part_behind nonempty
  · intro last
    obtain ⟨rest, stands⟩ := exists_part_behind marker text
    rw [last_piece_of_part_behind nonempty stands] at last
    rw [← Option.some.inj last]
    exact stands

/-- All of the text stands before and behind a marker that is not looked for. -/
theorem parts_without_marker {part : List Char} :
    (PartBefore [] text part ↔ part = text) ∧ (PartBehind [] text part ↔ part = text) := by
  have never : ¬Occurs [] text := fun occurs => occurs.1 rfl
  refine ⟨⟨?_, ?_⟩, ⟨?_, ?_⟩⟩
  · rintro (⟨nonempty, _⟩ | _)
    · exact absurd rfl nonempty
    · rfl
  · rintro rfl
    exact .absent never
  · rintro (⟨nonempty, _⟩ | _)
    · exact absurd rfl nonempty
    · rfl
  · rintro rfl
    exact .absent never

end SyntaxGraph.Text
