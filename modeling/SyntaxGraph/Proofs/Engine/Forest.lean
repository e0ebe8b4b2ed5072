import SyntaxGraph.Engine.Search

/-!
Forests of matches seen as lists. A match is told apart from an equal one by its position in the
flattened forest, so the parent of a match is a position as well.
-/

set_option autoImplicit false

namespace SyntaxGraph

namespace MatchNode

mutual

/-- The position of the parent of every match of a node, given the position of the node itself and
that of its parent. -/
def parentsFrom (parent : Option Nat) (position : Nat) : MatchNode → List (Option Nat)
  | mk _ children => parent :: parentsFromAll (some position) (position + 1) children

def parentsFromAll (parent : Option Nat) (position : Nat) : List MatchNode → List (Option Nat)
  | [] => []
  | node :: rest =>
      parentsFrom parent position node ++
        parentsFromAll parent (position + node.flatten.length) rest

end

/-- For every match of a forest the position of its parent; a match at the top has none. -/
def parents (forest : List MatchNode) : List (Option Nat) := parentsFromAll none 0 forest

theorem flatten_append (left right : List MatchNode) :
    flattenAll (left ++ right) = flattenAll left ++ flattenAll right := by
  induction left with
  | nil => rfl
  | cons node left induction => simp [flattenAll, induction]

theorem flatten_flat_map {Item : Type} (items : List Item) (forest : Item → List MatchNode) :
    flattenAll (items.flatMap forest) = items.flatMap fun item => flattenAll (forest item) := by
  induction items with
  | nil => rfl
  | cons item items induction => rw [List.flatMap_cons, List.flatMap_cons, flatten_append, induction]

theorem parents_append (parent : Option Nat) (position : Nat) (left right : List MatchNode) :
    parentsFromAll parent position (left ++ right) =
      parentsFromAll parent position left ++
        parentsFromAll parent (position + (flattenAll left).length) right := by
  induction left generalizing position with
  | nil => rfl
  | cons node left induction =>
      simp only [List.cons_append, parentsFromAll, flattenAll, induction, List.append_assoc,
        List.length_append, Nat.add_assoc]

theorem flatten_hang_under_last (below : List MatchNode) (here : List Match)
    (nonempty : here ≠ []) :
    flattenAll (hangUnderLast below here) = here ++ flattenAll below := by
  induction here with
  | nil => exact absurd rfl nonempty
  | cons first rest induction =>
      cases rest with
      | nil => simp [hangUnderLast, flattenAll, flatten]
      | cons second rest =>
          rw [hangUnderLast, flattenAll, flatten, flattenAll, induction (by simp)]
          · rfl
          · simp

theorem parents_hang_under_last (parent : Option Nat) (position : Nat) (below : List MatchNode)
    (here : List Match) (nonempty : here ≠ []) :
    parentsFromAll parent position (hangUnderLast below here) =
      List.replicate here.length parent ++
        parentsFromAll (some (position + here.length - 1)) (position + here.length) below := by
  induction here generalizing position with
  | nil => exact absurd rfl nonempty
  | cons first rest induction =>
      cases rest with
      | nil => simp [hangUnderLast, parentsFromAll, parentsFrom]
      | cons second rest =>
          rw [hangUnderLast, parentsFromAll, parentsFrom, parentsFromAll, induction _ (by simp)]
          · simp only [flatten, flattenAll, List.length_cons, List.length_nil,
              List.replicate_succ, List.cons_append, List.nil_append]
            rw [show position + (0 + 1) + (rest.length + 1) = position + (rest.length + 1 + 1) by
              omega]
          · simp

end MatchNode

end SyntaxGraph
