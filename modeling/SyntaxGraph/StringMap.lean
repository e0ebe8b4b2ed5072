/-!
Finite maps from strings, kept as a list of entries in strictly increasing key order.
The order is part of the type, so two maps with the same lookups are equal. Keys compare
by code point, which is also the byte order of their UTF-8 form.
-/

set_option autoImplicit false

namespace SyntaxGraph

/-- Keys are pairwise distinct because they increase strictly along the list. -/
structure StringMap (Value : Type) where
  entries : List (String × Value)
  increasing : entries.Pairwise (fun left right => left.1 < right.1)

namespace StringMap

variable {Value : Type}

def empty : StringMap Value := ⟨[], List.Pairwise.nil⟩

instance : Inhabited (StringMap Value) := ⟨empty⟩

instance : EmptyCollection (StringMap Value) := ⟨empty⟩

instance [DecidableEq Value] : DecidableEq (StringMap Value) := fun left right =>
  decidable_of_iff (left.entries = right.entries) (by
    cases left
    cases right
    simp)

def insertEntry (key : String) (value : Value) : List (String × Value) → List (String × Value)
  | [] => [(key, value)]
  | (other, previous) :: rest =>
      if key < other then (key, value) :: (other, previous) :: rest
      else if key = other then (key, value) :: rest
      else (other, previous) :: insertEntry key value rest

theorem mem_insertEntry {key : String} {value : Value} {entry : String × Value}
    {entries : List (String × Value)} (member : entry ∈ insertEntry key value entries) :
    entry = (key, value) ∨ entry ∈ entries := by
  induction entries with
  | nil => simpa [insertEntry] using member
  | cons head rest induction =>
      obtain ⟨other, previous⟩ := head
      simp only [insertEntry] at member
      split at member
      · simpa using member
      · split at member
        · rcases List.mem_cons.1 member with same | later
          · exact Or.inl same
          · exact Or.inr (List.mem_cons_of_mem _ later)
        · rcases List.mem_cons.1 member with same | later
          · exact Or.inr (by simp [same])
          · rcases induction later with same | later
            · exact Or.inl same
            · exact Or.inr (List.mem_cons_of_mem _ later)

theorem insertEntry_increasing (key : String) (value : Value) (entries : List (String × Value))
    (increasing : entries.Pairwise (fun left right => left.1 < right.1)) :
    (insertEntry key value entries).Pairwise (fun left right => left.1 < right.1) := by
  induction entries with
  | nil => simp [insertEntry]
  | cons head rest induction =>
      obtain ⟨other, previous⟩ := head
      obtain ⟨first, later⟩ := List.pairwise_cons.1 increasing
      simp only [insertEntry]
      split
      · rename_i less
        refine List.pairwise_cons.2 ⟨?_, increasing⟩
        intro entry member
        rcases List.mem_cons.1 member with same | member
        · simpa [same] using less
        · exact String.lt_trans less (first entry member)
      · split
        · rename_i same
          subst same
          exact List.pairwise_cons.2 ⟨first, later⟩
        · rename_i notLess notSame
          refine List.pairwise_cons.2 ⟨?_, induction later⟩
          intro entry member
          rcases mem_insertEntry member with same | member
          · simp only [same]
            exact Std.lt_of_le_of_ne (String.not_lt.1 notLess) (fun equal => notSame equal.symm)
          · exact first entry member

def insert (map : StringMap Value) (key : String) (value : Value) : StringMap Value :=
  ⟨insertEntry key value map.entries, insertEntry_increasing key value map.entries map.increasing⟩

def findEntry (key : String) : List (String × Value) → Option Value
  | [] => none
  | (other, value) :: rest => if key = other then some value else findEntry key rest

def find? (map : StringMap Value) (key : String) : Option Value := findEntry key map.entries

def contains (map : StringMap Value) (key : String) : Bool := (map.find? key).isSome

def isEmpty (map : StringMap Value) : Bool := map.entries.isEmpty

def ofList (entries : List (String × Value)) : StringMap Value :=
  entries.foldl (fun map entry => map.insert entry.1 entry.2) empty

def keys (map : StringMap Value) : List String := map.entries.map (·.1)

theorem findEntry_insertEntry (key other : String) (value : Value)
    (entries : List (String × Value)) :
    findEntry other (insertEntry key value entries) =
      if other = key then some value else findEntry other entries := by
  induction entries with
  | nil => simp [insertEntry, findEntry]
  | cons head rest induction =>
      obtain ⟨first, previous⟩ := head
      simp only [insertEntry]
      split
      · simp [findEntry]
      · split
        · rename_i same
          subst same
          by_cases equal : other = key <;> simp [findEntry, equal]
        · rename_i notSame
          simp only [findEntry, induction]
          by_cases equal : other = first
          · subst equal
            simp [Ne.symm notSame]
          · simp [equal]

theorem find?_insert (map : StringMap Value) (key other : String) (value : Value) :
    (map.insert key value).find? other = if other = key then some value else map.find? other :=
  findEntry_insertEntry key other value map.entries

@[simp] theorem find?_empty (key : String) : (empty : StringMap Value).find? key = none := rfl

theorem findEntry_of_smaller {key : String} {entries : List (String × Value)}
    (smaller : ∀ entry ∈ entries, key < entry.1) : findEntry key entries = none := by
  induction entries with
  | nil => rfl
  | cons head rest induction =>
      obtain ⟨other, value⟩ := head
      have less : key < other := smaller (other, value) List.mem_cons_self
      have different : key ≠ other := by
        intro same
        rw [same] at less
        exact String.lt_irrefl other less
      rw [findEntry, if_neg different]
      exact induction fun entry member => smaller entry (List.mem_cons_of_mem _ member)

theorem findEntry_head (key : String) (value : Value) (rest : List (String × Value)) :
    findEntry key ((key, value) :: rest) = some value := by
  rw [findEntry, if_pos rfl]

/-- The smallest key of one list cannot come before all keys of the other one. -/
theorem smallest_not_missing {key other : String} {value otherValue : Value}
    {rest otherRest : List (String × Value)} (behind : ∀ entry ∈ otherRest, other < entry.1)
    (same : findEntry key ((key, value) :: rest) = findEntry key ((other, otherValue) :: otherRest)) :
    ¬key < other := by
  intro less
  have smaller : ∀ entry ∈ (other, otherValue) :: otherRest, key < entry.1 := by
    intro entry member
    rcases List.mem_cons.1 member with first | later
    · rw [first]
      exact less
    · exact String.lt_trans less (behind entry later)
  rw [findEntry_head, findEntry_of_smaller smaller] at same
  cases same

theorem entries_of_findEntry {left right : List (String × Value)}
    (leftIncreasing : left.Pairwise (fun earlier later => earlier.1 < later.1))
    (rightIncreasing : right.Pairwise (fun earlier later => earlier.1 < later.1))
    (same : ∀ key, findEntry key left = findEntry key right) : left = right := by
  induction left generalizing right with
  | nil =>
      cases right with
      | nil => rfl
      | cons head rest =>
          have found := same head.1
          rw [findEntry_head] at found
          cases found
  | cons head rest induction =>
      obtain ⟨key, value⟩ := head
      obtain ⟨behind, restIncreasing⟩ := List.pairwise_cons.1 leftIncreasing
      cases right with
      | nil =>
          have found := same key
          rw [findEntry_head] at found
          cases found
      | cons otherHead otherRest =>
          obtain ⟨other, otherValue⟩ := otherHead
          obtain ⟨otherBehind, otherIncreasing⟩ := List.pairwise_cons.1 rightIncreasing
          have sameKey : key = other := by
            apply Std.le_antisymm
            · exact String.not_lt.1 (smallest_not_missing behind (same other).symm)
            · exact String.not_lt.1 (smallest_not_missing otherBehind (same key))
          subst sameKey
          have sameValue := same key
          rw [findEntry_head, findEntry_head] at sameValue
          rw [Option.some.inj sameValue]
          congr 1
          apply induction restIncreasing otherIncreasing
          intro wanted
          by_cases here : wanted = key
          · rw [here, findEntry_of_smaller behind, findEntry_of_smaller otherBehind]
          · have looked := same wanted
            rw [findEntry, findEntry, if_neg here, if_neg here] at looked
            exact looked

theorem eq_of_find? {left right : StringMap Value}
    (same : ∀ key, left.find? key = right.find? key) : left = right := by
  obtain ⟨leftEntries, leftIncreasing⟩ := left
  obtain ⟨rightEntries, rightIncreasing⟩ := right
  congr 1
  exact entries_of_findEntry leftIncreasing rightIncreasing same

end StringMap

end SyntaxGraph
