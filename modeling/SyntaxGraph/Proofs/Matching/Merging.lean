import Mathlib.Data.List.Induction
import SyntaxGraph.Proofs.Matching.Bindings

/-!
What merging captures does to a name. Its bindings in the maps, in their order, settle the matter: the
first one that reads as the name itself, or the last one where none does. Which maps are merged first
is hence of no account.
-/

set_option autoImplicit false

namespace SyntaxGraph

namespace Captures

/-- The node that a name gets from its bindings: the first one that reads as the name, or the last one
where none does. -/
def settle (tree : Tree) (name : String) (bindings : List NodeId) : Option NodeId :=
  (bindings.find? fun node => tree.text? node = some name).or bindings.getLast?

/-- The nodes that captures bind to a name, in their order. -/
def bindings (name : String) (maps : List Captures) : List NodeId :=
  maps.filterMap (·.find? name)

def mergeAll (tree : Tree) (maps : List Captures) : Captures :=
  maps.foldl (merge tree) StringMap.empty

variable {tree : Tree} {name : String}

-- Names and their bindings

theorem settle_nil : settle tree name [] = none := rfl

theorem settle_cons (node : NodeId) (rest : List NodeId) :
    settle tree name (node :: rest) =
      if tree.text? node = some name then some node else (settle tree name rest).or (some node) := by
  unfold settle
  by_cases reads : tree.text? node = some name
  · rw [List.find?_cons_of_pos (by simpa using reads), if_pos reads, Option.some_or]
  · rw [List.find?_cons_of_neg (by simpa using reads), if_neg reads, Option.or_assoc,
      List.getLast?_cons]
    cases rest.getLast? <;> rfl

theorem settle_settled_first (first second : List NodeId) :
    settle tree name ((settle tree name first).toList ++ second) =
      settle tree name (first ++ second) := by
  induction first with
  | nil => rfl
  | cons node rest induction =>
      rw [List.cons_append, settle_cons, settle_cons, ← induction]
      by_cases reads : tree.text? node = some name
      · rw [if_pos reads, if_pos reads, Option.toList_some, List.singleton_append, settle_cons,
          if_pos reads]
      · rw [if_neg reads, if_neg reads]
        cases settle tree name rest with
        | none =>
            rw [Option.none_or, Option.toList_some, List.singleton_append, settle_cons, if_neg reads]
            rfl
        | some settled =>
            rw [Option.some_or, Option.toList_some, List.singleton_append, settle_cons]
            split
            · rfl
            · cases settle tree name second <;> rfl

theorem settle_settled_last (first second : List NodeId) :
    settle tree name (first ++ (settle tree name second).toList) =
      settle tree name (first ++ second) := by
  induction first with
  | nil =>
      have alone : settle tree name ((settle tree name second).toList ++ []) =
          settle tree name (second ++ []) := settle_settled_first second []
      rw [List.append_nil, List.append_nil] at alone
      exact alone
  | cons node rest induction =>
      rw [List.cons_append, List.cons_append, settle_cons, settle_cons, induction]

theorem settle_ne_none {bindings : List NodeId} (bound : bindings ≠ []) :
    settle tree name bindings ≠ none := by
  cases bindings with
  | nil => exact absurd rfl bound
  | cons node rest =>
      rw [settle_cons]
      split
      · exact Option.some_ne_none node
      · cases settle tree name rest <;> simp

-- One merge

theorem find_merge_entry (captures : Captures) (entry : String × NodeId) :
    (mergeEntry tree captures entry).find? name =
      if entry.1 = name then settle tree name ((captures.find? name).toList ++ [entry.2])
      else captures.find? name := by
  obtain ⟨key, node⟩ := entry
  by_cases same : key = name
  · subst same
    rw [mergeEntry, isSettled, if_pos rfl]
    cases bound : captures.find? key with
    | none => simp [StringMap.find?_insert, settle_cons, settle_nil]
    | some before =>
        by_cases reads : tree.text? before = some key
        · simp [reads, bound, settle_cons]
        · simp [reads, StringMap.find?_insert, settle_cons, settle_nil]
  · rw [mergeEntry, if_neg same]
    by_cases settled : isSettled tree captures key = true
    · rw [if_pos settled]
    · rw [if_neg settled, StringMap.find?_insert, if_neg fun equal => same equal.symm]

/-- Every name comes up at most once among the incoming bindings. -/
theorem find_fold_entries (entries : List (String × NodeId))
    (increasing : entries.Pairwise fun left right => left.1 < right.1) (captures : Captures) :
    (entries.foldl (mergeEntry tree) captures).find? name =
      settle tree name
        ((captures.find? name).toList ++ (StringMap.findEntry name entries).toList) := by
  induction entries generalizing captures with
  | nil =>
      cases bound : captures.find? name with
      | none => simpa [StringMap.findEntry, settle_nil] using bound
      | some node => simpa [StringMap.findEntry, settle_cons, settle_nil] using bound
  | cons entry rest induction =>
      obtain ⟨key, node⟩ := entry
      obtain ⟨behind, restIncreasing⟩ := List.pairwise_cons.1 increasing
      rw [List.foldl_cons, induction restIncreasing, find_merge_entry]
      by_cases same : key = name
      · subst same
        have once : StringMap.findEntry key rest = none := StringMap.findEntry_of_smaller behind
        rw [if_pos rfl, once, StringMap.findEntry_head, Option.toList_none, Option.toList_some,
          settle_settled_first, List.append_nil]
      · rw [if_neg same, StringMap.findEntry, if_neg fun equal => same equal.symm]

theorem find_merge (captures incoming : Captures) :
    (captures.merge tree incoming).find? name =
      settle tree name ((captures.find? name).toList ++ (incoming.find? name).toList) :=
  find_fold_entries incoming.entries incoming.increasing captures

-- Many merges

theorem bindings_cons (captures : Captures) (maps : List Captures) :
    bindings name (captures :: maps) = (captures.find? name).toList ++ bindings name maps := by
  unfold bindings
  rw [List.filterMap_cons]
  cases captures.find? name <;> rfl

theorem find_fold_merge (first : Captures) (later : List Captures) :
    (later.foldl (merge tree) first).find? name =
      settle tree name (bindings name (first :: later)) := by
  induction later generalizing first with
  | nil =>
      rw [List.foldl_nil, bindings_cons]
      cases first.find? name <;> simp [bindings, settle_cons, settle_nil]
  | cons next rest induction =>
      rw [List.foldl_cons, induction, bindings_cons, find_merge, settle_settled_first, bindings_cons,
        bindings_cons, List.append_assoc]

theorem contains_fold_merge_iff (first : Captures) (later : List Captures) :
    (later.foldl (merge tree) first).contains name = true ↔
      ∃ captures ∈ first :: later, captures.contains name = true := by
  have bound : (∃ captures ∈ first :: later, captures.contains name = true) ↔
      bindings name (first :: later) ≠ [] := by
    simp only [StringMap.contains, bindings, ne_eq, List.filterMap_eq_nil_iff, not_forall,
      ← Option.isSome_iff_ne_none, exists_prop]
  rw [bound, StringMap.contains, find_fold_merge, Option.isSome_iff_ne_none]
  constructor
  · intro settled nothing
    rw [nothing] at settled
    exact settled settle_nil
  · exact settle_ne_none

theorem merge_assoc (first second third : Captures) :
    (first.merge tree second).merge tree third = first.merge tree (second.merge tree third) := by
  apply StringMap.eq_of_find?
  intro name
  rw [find_merge, find_merge, find_merge, find_merge, settle_settled_first, settle_settled_last,
    List.append_assoc]

theorem merge_self (captures : Captures) : captures.merge tree captures = captures := by
  apply StringMap.eq_of_find?
  intro name
  rw [find_merge]
  cases captures.find? name with
  | none => rfl
  | some node => simp [settle_cons, settle_nil]

theorem empty_merge (captures : Captures) : merge tree StringMap.empty captures = captures := by
  apply StringMap.eq_of_find?
  intro name
  rw [find_merge, StringMap.find?_empty]
  cases captures.find? name <;> simp [settle_cons, settle_nil]

theorem fold_merge_eq (first : Captures) (later : List Captures) :
    later.foldl (merge tree) first = first.merge tree (mergeAll tree later) := by
  induction later using List.reverseRecOn with
  | nil =>
      apply StringMap.eq_of_find?
      intro name
      rw [find_merge]
      cases bound : first.find? name <;> simp [mergeAll, bound, settle_cons, settle_nil]
  | append_singleton earlier last induction =>
      rw [mergeAll, List.foldl_append, List.foldl_append, induction, List.foldl_cons, List.foldl_cons,
        List.foldl_nil, List.foldl_nil, merge_assoc, mergeAll]

theorem merge_all_groups (groups : List (List Captures)) :
    mergeAll tree (groups.map (mergeAll tree)) = mergeAll tree groups.flatten := by
  induction groups with
  | nil => rfl
  | cons group rest induction =>
      have split : mergeAll tree (group ++ rest.flatten) =
          (mergeAll tree group).merge tree (mergeAll tree rest.flatten) := by
        rw [mergeAll, List.foldl_append]
        exact fold_merge_eq (mergeAll tree group) rest.flatten
      rw [List.map_cons, List.flatten_cons, split, ← induction, mergeAll, List.foldl_cons,
        empty_merge]
      exact fold_merge_eq (mergeAll tree group) (rest.map (mergeAll tree))

/-- Merging looks at nodes that are bound already, and looks at nothing else. -/
theorem merge_known {captures incoming : Captures}
    (known : captures.All fun _ node => tree.contains node = true) :
    captures.merge? tree incoming = some (captures.merge tree incoming) := by
  have reads : mergeReadsUnknown tree captures incoming = false := by
    apply List.any_eq_false.2
    intro name _
    cases bound : captures.find? name with
    | none => simp
    | some node => simp [known.of_find bound]
  rw [merge?, reads]
  rfl

theorem fold_merge_known {first : Captures} {later : List Captures}
    (known : ∀ captures ∈ first :: later, captures.All fun _ node => tree.contains node = true) :
    later.foldlM (merge? tree) first = some (later.foldl (merge tree) first) := by
  induction later generalizing first with
  | nil => rfl
  | cons next rest induction =>
      have firstKnown := known first (by simp)
      rw [List.foldlM_cons, List.foldl_cons, merge_known firstKnown]
      apply induction
      intro captures member
      rcases List.mem_cons.1 member with same | later
      · rw [same]
        exact firstKnown.merge (known next (by simp))
      · exact known captures (by simp [later])

/-- Captures that are merged one after another bind the names that one of them binds, each to the first
of its bindings that reads as the name, or to the last one where none does. Merging is hence associative
and idempotent, and captures that are merged in groups first come to the same. It never looks at a node
that the tree does not know, provided that the captures bind none. -/
theorem merges_settle_names (tree : Tree) (first : Captures) (later : List Captures) :
    let merged := later.foldl (merge tree) first
    (∀ name, merged.contains name = true ↔
      ∃ captures ∈ first :: later, captures.contains name = true) ∧
    (∀ name, merged.find? name = settle tree name (bindings name (first :: later))) ∧
    (∀ left middle right : Captures,
      (left.merge tree middle).merge tree right = left.merge tree (middle.merge tree right)) ∧
    (∀ captures : Captures, captures.merge tree captures = captures) ∧
    (∀ groups : List (List Captures), groups.flatten = first :: later →
      mergeAll tree (groups.map (mergeAll tree)) = merged) ∧
    ((∀ captures ∈ first :: later, captures.All fun _ node => tree.contains node = true) →
      later.foldlM (merge? tree) first = some merged) := by
  intro merged
  refine ⟨fun _ => contains_fold_merge_iff first later, fun _ => find_fold_merge first later,
    merge_assoc, merge_self, ?_, fold_merge_known⟩
  intro groups divided
  rw [merge_all_groups, divided, mergeAll, List.foldl_cons, empty_merge]

def twoLeaves : Tree :=
  let span : Span := ⟨0, 0, 1, 0⟩
  ⟨#[⟨0, "f", "x other", span, none, [1, 2]⟩, ⟨1, "x", "x", span, some 0, []⟩,
    ⟨2, "x", "other", span, some 0, []⟩], some 0⟩

/-- One name stays with the first leaf, although the second one is bound before it and behind it; the
other name goes with the last binding. -/
theorem name_stays_with_leaf_that_reads_so :
    let first : Captures := (StringMap.empty.insert "v" 1).insert "x" 2
    let later : List Captures := [StringMap.empty.insert "x" 1, (StringMap.empty.insert "v" 2).insert "x" 2]
    (∀ captures ∈ first :: later, captures.All fun _ node => twoLeaves.contains node = true) ∧
      later.foldlM (merge? twoLeaves) first = some (later.foldl (merge twoLeaves) first) ∧
      (later.foldl (merge twoLeaves) first).find? "x" = some 1 ∧
      (later.foldl (merge twoLeaves) first).find? "v" = some 2 := by
  intro first later
  have known : ∀ captures ∈ first :: later,
      captures.All fun _ node => twoLeaves.contains node = true := by
    unfold All
    decide +kernel
  obtain ⟨_, settled, _, _, _, checked⟩ := merges_settle_names twoLeaves first later
  refine ⟨known, checked known, ?_, ?_⟩
  · rw [settled]
    decide +kernel
  · rw [settled]
    decide +kernel

end Captures

end SyntaxGraph
