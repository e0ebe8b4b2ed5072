import Mathlib.Data.List.Sort
import Mathlib.Data.Prod.Lex
import Mathlib.Data.String.Basic
import SyntaxGraph.Path

/-!
The order of paths. A path has a place among all paths, which all of its spellings share; places are
compared component by component, and components by rank and then by name. Sorting paths and dropping
repeated neighbours leaves one spelling at every place, in increasing order.
-/

set_option autoImplicit false

namespace SyntaxGraph.Path

def Component.place : Component → ℕ ×ₗ String
  | .name text => toLex (3, text)
  | component => toLex (component.rank, "")

theorem Component.place_injective : Function.Injective Component.place := by
  intro left right same
  have ranks := congrArg (fun place => (ofLex place).1) same
  have texts := congrArg (fun place => (ofLex place).2) same
  cases left <;> cases right <;> simp_all [place, rank]

theorem Component.before_iff (left right : Component) :
    left.before right = true ↔ left.place < right.place := by
  rw [Prod.Lex.lt_iff]
  cases left <;> cases right <;> simp [before, place, rank]

def place (path : String) : List (ℕ ×ₗ String) := (components path).map Component.place

theorem same_iff {left right : String} : same left right = true ↔ place left = place right := by
  rw [same, decide_eq_true_iff, place, place]
  exact (List.map_injective_iff.2 Component.place_injective).eq_iff.symm

theorem components_before_iff (left right : List Component) :
    componentsBefore left right = true ↔
      left.map Component.place < right.map Component.place := by
  induction left generalizing right with
  | nil =>
      cases right with
      | nil => simp [componentsBefore]
      | cons component rest => simp [componentsBefore]
  | cons component rest induction =>
      cases right with
      | nil => simp [componentsBefore]
      | cons other others =>
          rw [componentsBefore, List.map_cons, List.map_cons, List.cons_lt_cons_iff,
            Bool.or_eq_true, Bool.and_eq_true, decide_eq_true_iff, induction others,
            Component.before_iff, Component.place_injective.eq_iff]

theorem before_iff {left right : String} :
    before left right = true ↔ place left < place right :=
  components_before_iff (components left) (components right)

-- Neighbours at the same place

theorem drop_repeats_sublist (paths : List String) : (dropRepeats paths).Sublist paths := by
  induction paths with
  | nil => exact .slnil
  | cons path rest induction =>
      rw [dropRepeats]
      cases kept : dropRepeats rest with
      | nil => exact (List.nil_sublist rest).cons_cons path
      | cons next others =>
          rw [kept] at induction
          dsimp only
          split
          · exact ((List.sublist_cons_self next others).trans induction).cons_cons path
          · exact induction.cons_cons path

theorem drop_repeats_covers {paths : List String} {path : String} (listed : path ∈ paths) :
    ∃ kept ∈ dropRepeats paths, place kept = place path := by
  induction paths with
  | nil => cases listed
  | cons first rest induction =>
      rw [dropRepeats]
      cases remaining : dropRepeats rest with
      | nil =>
          rw [remaining] at induction
          rcases List.mem_cons.1 listed with rfl | later
          · exact ⟨path, List.mem_singleton_self path, rfl⟩
          · obtain ⟨kept, none, _⟩ := induction later
            cases none
      | cons next others =>
          rw [remaining] at induction
          dsimp only
          split
          next repeated =>
            rcases List.mem_cons.1 listed with rfl | later
            · exact ⟨path, List.mem_cons_self, rfl⟩
            · obtain ⟨kept, stays, alike⟩ := induction later
              rcases List.mem_cons.1 stays with rfl | behind
              · exact ⟨first, List.mem_cons_self, (same_iff.1 repeated).trans alike⟩
              · exact ⟨kept, List.mem_cons_of_mem _ behind, alike⟩
          next =>
            rcases List.mem_cons.1 listed with rfl | later
            · exact ⟨path, List.mem_cons_self, rfl⟩
            · obtain ⟨kept, stays, alike⟩ := induction later
              exact ⟨kept, List.mem_cons_of_mem _ stays, alike⟩

theorem drop_repeats_increasing {paths : List String}
    (ordered : paths.Pairwise fun left right => place left ≤ place right) :
    (dropRepeats paths).Pairwise fun left right => place left < place right := by
  induction paths with
  | nil => exact .nil
  | cons path rest induction =>
      obtain ⟨least, behind⟩ := List.pairwise_cons.1 ordered
      have increasing := induction behind
      have listed := (drop_repeats_sublist rest).subset
      rw [dropRepeats]
      cases kept : dropRepeats rest with
      | nil => exact List.pairwise_singleton _ path
      | cons next others =>
          rw [kept] at increasing listed
          obtain ⟨first, later⟩ := List.pairwise_cons.1 increasing
          have atLeast : place path ≤ place next := least next (listed List.mem_cons_self)
          dsimp only
          split
          next repeated =>
            refine List.pairwise_cons.2 ⟨fun other member => ?_, later⟩
            rw [same_iff.1 repeated]
            exact first other member
          next different =>
            have less : place path < place next :=
              atLeast.lt_of_ne fun equal => different (same_iff.2 equal)
            refine List.pairwise_cons.2 ⟨fun other member => ?_, increasing⟩
            rcases List.mem_cons.1 member with rfl | further
            · exact less
            · exact less.trans (first other further)

-- Sorted paths

theorem mem_of_mem_sort_unique {paths : List String} {path : String}
    (listed : path ∈ sortUnique paths) : path ∈ paths :=
  (List.mergeSort_perm _ _).mem_iff.1 ((drop_repeats_sublist _).subset listed)

theorem sort_unique_covers {paths : List String} {path : String} (listed : path ∈ paths) :
    ∃ kept ∈ sortUnique paths, place kept = place path :=
  drop_repeats_covers ((List.mergeSort_perm _ _).mem_iff.2 listed)

theorem sort_unique_increasing (paths : List String) :
    (sortUnique paths).Pairwise fun left right => place left < place right := by
  have order : ∀ left right : String,
      (!before right left) = true ↔ place left ≤ place right := by
    intro left right
    rw [Bool.not_eq_true', ← Bool.not_eq_true, before_iff, not_lt]
  apply drop_repeats_increasing
  simp only [← order]
  apply List.pairwise_mergeSort
  · intro first second third
    rw [order, order, order]
    exact le_trans
  · intro left right
    rw [Bool.or_eq_true, order, order]
    exact le_total _ _

/-- Sorted paths are told by the places of the paths that went in. -/
theorem sort_unique_places {paths others : List String}
    (alike : ∀ position, position ∈ paths.map place ↔ position ∈ others.map place) :
    (sortUnique paths).map place = (sortUnique others).map place := by
  have places : ∀ (listed : List String) position,
      position ∈ (sortUnique listed).map place ↔ position ∈ listed.map place := by
    intro listed position
    constructor
    · intro member
      obtain ⟨path, kept, rfl⟩ := List.mem_map.1 member
      exact List.mem_map_of_mem (mem_of_mem_sort_unique kept)
    · intro member
      obtain ⟨path, given, rfl⟩ := List.mem_map.1 member
      obtain ⟨kept, stays, same⟩ := sort_unique_covers given
      exact List.mem_map.2 ⟨kept, stays, same⟩
  have increasing : ∀ listed : List String, ((sortUnique listed).map place).Pairwise (· < ·) :=
    fun listed => List.pairwise_map.2 (sort_unique_increasing listed)
  apply (increasing paths).eq_of_mem_iff (increasing others)
  intro position
  rw [places, places, alike]

end SyntaxGraph.Path
