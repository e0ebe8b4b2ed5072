import Mathlib.Data.List.Forall2
import Mathlib.Data.List.Lex
import SyntaxGraph.Matching

/-!
What the search among siblings yields. An assignment gives every pattern a child and one of the
matches there, or leaves an optional pattern out. The search reports the admissible assignments
in lexicographic order and once each, whatever the tree; how far the matches at a single child
look into the tree is not part of these statements.
-/

set_option autoImplicit false

namespace SyntaxGraph

/-- The child that a pattern takes, and which of the matches there. -/
structure Placement where
  child : Nat
  choice : Nat
deriving DecidableEq, Repr

/-- A placement for every pattern in order; an absent pattern has none. -/
abbrev Assignment := List (Option Placement)

namespace Assignment

def positions (assignment : Assignment) : List Nat :=
  assignment.filterMap fun placement => placement.map Placement.child

/-- Placements compare by child and then by choice. -/
def Earlier : Option Placement → Option Placement → Prop
  | some left, some right =>
      left.child < right.child ∨ left.child = right.child ∧ left.choice < right.choice
  | _, _ => False

/-- Assignments compare where they differ first. -/
def Before : Assignment → Assignment → Prop := List.Lex Earlier

theorem earlier_irreflexive (placement : Option Placement) : ¬Earlier placement placement := by
  cases placement with
  | none => exact id
  | some placement =>
      rintro (smaller | ⟨_, smaller⟩)
      · omega
      · omega

theorem before_ne {left right : Assignment} (before : Before left right) : left ≠ right := by
  intro same
  subst same
  exact List.lex_irrefl earlier_irreflexive left before

end Assignment

namespace Tree

variable (tree : Tree) (children : List NodeId)

/-- The matches of a pattern at the child with an index; there are none behind the last child. -/
def matchesOfChild (pattern : Pattern) (position : Nat) : List Captures :=
  match children[position]? with
  | some node => tree.matchAt node pattern
  | none => []

def Allows (pattern : Pattern) : Option Placement → Prop
  | some placement =>
      placement.choice < (tree.matchesOfChild children pattern placement.child).length
  | none => pattern.isOptional = true

/-- What an assignment has to respect when the search starts at an index. -/
structure Assigns (patterns : List Pattern) (start : Nat) (assignment : Assignment) : Prop where
  allowed : List.Forall₂ (tree.Allows children) patterns assignment
  bounded : ∀ position ∈ assignment.positions, start ≤ position
  increasing : assignment.positions.Pairwise (· < ·)

/-- An admissible assignment leaves a pattern out only where no assignment with the same
beginning places it. -/
structure Admits (patterns : List Pattern) (start : Nat) (assignment : Assignment) : Prop where
  assigns : tree.Assigns children patterns start assignment
  forced : ∀ index, assignment[index]? = some none →
    ∀ other, tree.Assigns children patterns start other →
      other.take index = assignment.take index →
        ∀ placement, other[index]? ≠ some (some placement)

/-- The chosen captures of the present patterns, in order. -/
def chosen (patterns : List Pattern) (assignment : Assignment) : List Captures :=
  (patterns.zip assignment).filterMap fun (pattern, given) =>
    given.bind fun placement =>
      (tree.matchesOfChild children pattern placement.child)[placement.choice]?

def mergeChosen (patterns : List Pattern) (captures : Captures) (assignment : Assignment) :
    Captures :=
  (tree.chosen children patterns assignment).foldl (Captures.merge tree) captures

/-- Every placement of a pattern from an index on, with every way to go on behind it. -/
def placing (pattern : Pattern) (start : Nat) (continuations : Nat → List Assignment) :
    List Assignment :=
  (List.range' start (children.length - start)).flatMap fun position =>
    (List.range (tree.matchesOfChild children pattern position).length).flatMap fun choice =>
      (continuations (position + 1)).map (some ⟨position, choice⟩ :: ·)

def admissible : List Pattern → Nat → List Assignment
  | [], _ => [[]]
  | pattern :: rest, start =>
      let present := tree.placing children pattern start (admissible rest)
      if present.isEmpty && pattern.isOptional then (admissible rest start).map (none :: ·)
      else present

theorem choice_in_range {pattern : Pattern} {position choice : Nat}
    (choiceBound : choice < (tree.matchesOfChild children pattern position).length) :
    position < children.length := by
  by_contra outside
  have unlisted : children[position]? = none := List.getElem?_eq_none (by omega)
  simp [matchesOfChild, unlisted] at choiceBound

theorem mem_placing (pattern : Pattern) (start : Nat) (continuations : Nat → List Assignment)
    (assignment : Assignment) :
    assignment ∈ tree.placing children pattern start continuations ↔
      ∃ placement later, assignment = some placement :: later ∧ start ≤ placement.child ∧
        placement.choice < (tree.matchesOfChild children pattern placement.child).length ∧
          later ∈ continuations (placement.child + 1) := by
  simp only [placing, List.mem_flatMap, List.mem_range'_1, List.mem_range, List.mem_map]
  constructor
  · rintro ⟨position, ⟨startBound, _⟩, choice, choiceBound, later, member, same⟩
    exact ⟨⟨position, choice⟩, later, same.symm, startBound, choiceBound, member⟩
  · rintro ⟨⟨position, choice⟩, later, same, startBound, choiceBound, member⟩
    have inside := tree.choice_in_range children choiceBound
    exact ⟨position, ⟨startBound, by simp only at inside startBound; omega⟩, choice, choiceBound,
      later, member, same.symm⟩

theorem assigns_nil (start : Nat) (assignment : Assignment) :
    tree.Assigns children [] start assignment ↔ assignment = [] := by
  constructor
  · intro assigns
    exact List.forall₂_nil_left_iff.1 assigns.allowed
  · intro same
    subst same
    exact ⟨List.Forall₂.nil, by simp [Assignment.positions], by simp [Assignment.positions]⟩

theorem assigns_absent (pattern : Pattern) (rest : List Pattern) (start : Nat)
    (assignment : Assignment) :
    tree.Assigns children (pattern :: rest) start (none :: assignment) ↔
      pattern.isOptional = true ∧ tree.Assigns children rest start assignment := by
  constructor
  · intro assigns
    obtain ⟨optional, allowed⟩ := List.forall₂_cons.1 assigns.allowed
    exact ⟨optional, allowed, assigns.bounded, assigns.increasing⟩
  · rintro ⟨optional, assigns⟩
    exact ⟨List.Forall₂.cons optional assigns.allowed, assigns.bounded, assigns.increasing⟩

theorem assigns_present (pattern : Pattern) (rest : List Pattern) (start : Nat)
    (placement : Placement) (assignment : Assignment) :
    tree.Assigns children (pattern :: rest) start (some placement :: assignment) ↔
      start ≤ placement.child ∧
        placement.choice < (tree.matchesOfChild children pattern placement.child).length ∧
          tree.Assigns children rest (placement.child + 1) assignment := by
  have split : (Assignment.positions (some placement :: assignment)) =
      placement.child :: Assignment.positions assignment := by
    simp [Assignment.positions]
  constructor
  · intro assigns
    obtain ⟨choiceBound, allowed⟩ := List.forall₂_cons.1 assigns.allowed
    have bounded := assigns.bounded
    have increasing := assigns.increasing
    rw [split] at bounded increasing
    obtain ⟨later, tail⟩ := List.pairwise_cons.1 increasing
    exact ⟨bounded _ List.mem_cons_self, choiceBound, allowed, later, tail⟩
  · rintro ⟨startBound, choiceBound, assigns⟩
    refine ⟨List.Forall₂.cons choiceBound assigns.allowed, ?_, ?_⟩
    · rw [split]
      intro position member
      rcases List.mem_cons.1 member with same | later
      · omega
      · have := assigns.bounded position later
        omega
    · rw [split]
      exact List.pairwise_cons.2 ⟨assigns.bounded, assigns.increasing⟩

theorem assigns_cons_cases {pattern : Pattern} {rest : List Pattern} {start : Nat}
    {assignment : Assignment}
    (assigns : tree.Assigns children (pattern :: rest) start assignment) :
    (∃ later, assignment = none :: later) ∨
      ∃ placement later, assignment = some placement :: later := by
  obtain ⟨given, later, _, _, same⟩ := List.forall₂_cons_left_iff.1 assigns.allowed
  cases given with
  | none => exact Or.inl ⟨later, same⟩
  | some placement => exact Or.inr ⟨placement, later, same⟩

/-- Nothing is placed exactly where no assignment places the pattern, if the same is known of the
patterns behind it. -/
theorem placing_eq_nil (pattern : Pattern) (rest : List Pattern) (start : Nat)
    (continuations : Nat → List Assignment)
    (behind : ∀ position, continuations position = [] ↔
      ∀ assignment, ¬tree.Assigns children rest position assignment) :
    tree.placing children pattern start continuations = [] ↔
      ∀ placement later,
        ¬tree.Assigns children (pattern :: rest) start (some placement :: later) := by
  rw [List.eq_nil_iff_forall_not_mem]
  constructor
  · intro empty placement later assigns
    obtain ⟨startBound, choiceBound, laterAssigns⟩ :=
      (tree.assigns_present children _ _ _ _ _).1 assigns
    have continued : continuations (placement.child + 1) ≠ [] := by
      intro nothing
      exact (behind _).1 nothing later laterAssigns
    obtain ⟨found, member⟩ := List.exists_mem_of_ne_nil _ continued
    exact empty _ ((tree.mem_placing children _ _ _ _).2
      ⟨placement, found, rfl, startBound, choiceBound, member⟩)
  · intro impossible assignment member
    obtain ⟨placement, later, _, startBound, choiceBound, laterMember⟩ :=
      (tree.mem_placing children _ _ _ _).1 member
    have continued : ¬∀ other, ¬tree.Assigns children rest (placement.child + 1) other := by
      intro nothing
      exact List.ne_nil_of_mem laterMember ((behind _).2 nothing)
    obtain ⟨other, assigns⟩ := not_forall_not.1 continued
    exact impossible placement other
      ((tree.assigns_present children _ _ _ _ _).2 ⟨startBound, choiceBound, assigns⟩)

/-- The search finds nothing exactly where there is nothing to find. The retry without an optional
pattern is what makes this true of the patterns behind another one as well. -/
theorem admissible_eq_nil (patterns : List Pattern) (start : Nat) :
    tree.admissible children patterns start = [] ↔
      ∀ assignment, ¬tree.Assigns children patterns start assignment := by
  induction patterns generalizing start with
  | nil => simp [admissible, assigns_nil]
  | cons pattern rest induction =>
      have unplaced := tree.placing_eq_nil children pattern rest start _ induction
      simp only [admissible]
      by_cases retry : tree.placing children pattern start (tree.admissible children rest) = [] ∧
          pattern.isOptional = true
      · rw [if_pos (by simpa using retry), List.map_eq_nil_iff, induction start]
        constructor
        · intro absentFails assignment assigns
          rcases tree.assigns_cons_cases children assigns with ⟨later, same⟩ | ⟨placement, later, same⟩
          · subst same
            exact absentFails later ((tree.assigns_absent children _ _ _ _).1 assigns).2
          · subst same
            exact unplaced.1 retry.1 placement later assigns
        · intro impossible later assigns
          exact impossible (none :: later)
            ((tree.assigns_absent children _ _ _ _).2 ⟨retry.2, assigns⟩)
      · rw [if_neg (by simpa using retry), unplaced]
        constructor
        · intro placedFails assignment assigns
          rcases tree.assigns_cons_cases children assigns with ⟨later, same⟩ | ⟨placement, later, same⟩
          · subst same
            have optional := ((tree.assigns_absent children _ _ _ _).1 assigns).1
            exact retry ⟨unplaced.2 placedFails, optional⟩
          · subst same
            exact placedFails placement later assigns
        · intro impossible placement later
          exact impossible (some placement :: later)

theorem admits_nil (start : Nat) (assignment : Assignment) :
    tree.Admits children [] start assignment ↔ assignment = [] := by
  constructor
  · intro admits
    exact (tree.assigns_nil children _ _).1 admits.assigns
  · intro same
    subst same
    exact ⟨(tree.assigns_nil children _ _).2 rfl, by simp⟩

theorem admits_present (pattern : Pattern) (rest : List Pattern) (start : Nat)
    (placement : Placement) (later : Assignment) :
    tree.Admits children (pattern :: rest) start (some placement :: later) ↔
      start ≤ placement.child ∧
        placement.choice < (tree.matchesOfChild children pattern placement.child).length ∧
          tree.Admits children rest (placement.child + 1) later := by
  constructor
  · intro admits
    obtain ⟨startBound, choiceBound, assigns⟩ :=
      (tree.assigns_present children _ _ _ _ _).1 admits.assigns
    refine ⟨startBound, choiceBound, assigns, ?_⟩
    intro index absent other otherAssigns agrees chosenPlacement
    have extended := (tree.assigns_present children pattern rest start placement other).2
      ⟨startBound, choiceBound, otherAssigns⟩
    have forced := admits.forced (index + 1) (by simpa using absent) _ extended
      (by simpa using agrees) chosenPlacement
    simpa using forced
  · rintro ⟨startBound, choiceBound, admits⟩
    refine ⟨(tree.assigns_present children _ _ _ _ _).2
      ⟨startBound, choiceBound, admits.assigns⟩, ?_⟩
    intro index absent other otherAssigns agrees chosenPlacement
    cases index with
    | zero => simp at absent
    | succ index =>
        rcases tree.assigns_cons_cases children otherAssigns with ⟨tail, same⟩ | ⟨first, tail, same⟩
        · subst same
          simp at agrees
        · subst same
          simp only [List.take_succ_cons, List.cons.injEq, Option.some.injEq] at agrees
          obtain ⟨sameFirst, sameTail⟩ := agrees
          subst sameFirst
          have tailAssigns := ((tree.assigns_present children _ _ _ _ _).1 otherAssigns).2.2
          simpa using admits.forced index (by simpa using absent) tail tailAssigns sameTail
            chosenPlacement

theorem admits_absent (pattern : Pattern) (rest : List Pattern) (start : Nat)
    (later : Assignment) :
    tree.Admits children (pattern :: rest) start (none :: later) ↔
      pattern.isOptional = true ∧ tree.Admits children rest start later ∧
        ∀ placement other,
          ¬tree.Assigns children (pattern :: rest) start (some placement :: other) := by
  constructor
  · intro admits
    obtain ⟨optional, assigns⟩ := (tree.assigns_absent children _ _ _ _).1 admits.assigns
    refine ⟨optional, ⟨assigns, ?_⟩, ?_⟩
    · intro index absent other otherAssigns agrees chosenPlacement
      have extended := (tree.assigns_absent children pattern rest start other).2
        ⟨optional, otherAssigns⟩
      have forced := admits.forced (index + 1) (by simpa using absent) _ extended
        (by simpa using agrees) chosenPlacement
      simpa using forced
    · intro placement other otherAssigns
      exact admits.forced 0 rfl _ otherAssigns rfl placement rfl
  · rintro ⟨optional, admits, unplaced⟩
    refine ⟨(tree.assigns_absent children _ _ _ _).2 ⟨optional, admits.assigns⟩, ?_⟩
    intro index absent other otherAssigns agrees chosenPlacement
    rcases tree.assigns_cons_cases children otherAssigns with ⟨tail, same⟩ | ⟨first, tail, same⟩
    · subst same
      have tailAssigns := ((tree.assigns_absent children _ _ _ _).1 otherAssigns).2
      cases index with
      | zero => simp
      | succ index =>
          simpa using admits.forced index (by simpa using absent) tail tailAssigns
            (by simpa using agrees) chosenPlacement
    · subst same
      exact absurd otherAssigns (unplaced first tail)

theorem mem_admissible (patterns : List Pattern) (start : Nat) (assignment : Assignment) :
    assignment ∈ tree.admissible children patterns start ↔
      tree.Admits children patterns start assignment := by
  induction patterns generalizing start assignment with
  | nil => simp [admissible, admits_nil]
  | cons pattern rest induction =>
      have unplaced := tree.placing_eq_nil children pattern rest start _
        (tree.admissible_eq_nil children rest)
      simp only [admissible]
      by_cases retry : tree.placing children pattern start (tree.admissible children rest) = [] ∧
          pattern.isOptional = true
      · rw [if_pos (by simpa using retry), List.mem_map]
        constructor
        · rintro ⟨later, member, same⟩
          subst same
          exact (tree.admits_absent children _ _ _ _).2
            ⟨retry.2, (induction _ _).1 member, unplaced.1 retry.1⟩
        · intro admits
          rcases tree.assigns_cons_cases children admits.assigns with
            ⟨later, same⟩ | ⟨placement, later, same⟩
          · subst same
            have laterAdmits := ((tree.admits_absent children _ _ _ _).1 admits).2.1
            exact ⟨later, (induction _ _).2 laterAdmits, rfl⟩
          · subst same
            exact absurd admits.assigns (unplaced.1 retry.1 placement later)
      · rw [if_neg (by simpa using retry), mem_placing]
        constructor
        · rintro ⟨placement, later, same, startBound, choiceBound, member⟩
          subst same
          exact (tree.admits_present children _ _ _ _ _).2
            ⟨startBound, choiceBound, (induction _ _).1 member⟩
        · intro admits
          rcases tree.assigns_cons_cases children admits.assigns with
            ⟨later, same⟩ | ⟨placement, later, same⟩
          · subst same
            obtain ⟨optional, _, impossible⟩ := (tree.admits_absent children _ _ _ _).1 admits
            exact absurd ⟨unplaced.2 impossible, optional⟩ retry
          · subst same
            obtain ⟨startBound, choiceBound, laterAdmits⟩ :=
              (tree.admits_present children _ _ _ _ _).1 admits
            exact ⟨placement, later, rfl, startBound, choiceBound,
              (induction _ _).2 laterAdmits⟩

theorem placing_ordered (pattern : Pattern) (start : Nat) (continuations : Nat → List Assignment)
    (behind : ∀ position, (continuations position).Pairwise Assignment.Before) :
    (tree.placing children pattern start continuations).Pairwise Assignment.Before := by
  rw [placing, List.pairwise_flatMap]
  constructor
  · intro position _
    rw [List.pairwise_flatMap]
    constructor
    · intro choice _
      rw [List.pairwise_map]
      exact (behind (position + 1)).imp List.Lex.cons
    · refine List.pairwise_lt_range.imp ?_
      intro first second smaller left leftMember right rightMember
      obtain ⟨leftLater, _, sameLeft⟩ := List.mem_map.1 leftMember
      obtain ⟨rightLater, _, sameRight⟩ := List.mem_map.1 rightMember
      subst sameLeft sameRight
      exact List.Lex.rel (Or.inr ⟨rfl, smaller⟩)
  · refine (List.pairwise_lt_range' 1).imp ?_
    intro first second smaller left leftMember right rightMember
    simp only [List.mem_flatMap, List.mem_map] at leftMember rightMember
    obtain ⟨leftChoice, _, leftLater, _, sameLeft⟩ := leftMember
    obtain ⟨rightChoice, _, rightLater, _, sameRight⟩ := rightMember
    subst sameLeft sameRight
    exact List.Lex.rel (Or.inl smaller)

theorem admissible_ordered (patterns : List Pattern) (start : Nat) :
    (tree.admissible children patterns start).Pairwise Assignment.Before := by
  induction patterns generalizing start with
  | nil => simp [admissible]
  | cons pattern rest induction =>
      simp only [admissible]
      split
      · rw [List.pairwise_map]
        exact (induction start).imp List.Lex.cons
      · exact tree.placing_ordered children pattern start _ induction

theorem flat_map_range_length {Item Result : Type} (items : List Item)
    (byIndex : Nat → List Result) (byItem : Item → List Result)
    (agree : ∀ index item, items[index]? = some item → byIndex index = byItem item) :
    (List.range items.length).flatMap byIndex = items.flatMap byItem := by
  induction items generalizing byIndex with
  | nil => rfl
  | cons item items induction =>
      rw [List.length_cons, List.range_succ_eq_map, List.flatMap_cons, List.flatMap_map,
        List.flatMap_cons, agree 0 item rfl]
      rw [induction (fun index => byIndex (index + 1))]
      intro index later listed
      exact agree (index + 1) later (by simpa using listed)

/-- Going through the children with those behind them is going through their positions. -/
theorem with_later_positions {Result : Type} (start : Nat)
    (visit : NodeId × List NodeId → List Result) :
    (withLater (children.drop start)).flatMap visit =
      (List.range' start (children.length - start)).flatMap fun position =>
        match children[position]? with
        | some child => visit (child, children.drop (position + 1))
        | none => [] := by
  induction count : children.length - start generalizing start with
  | zero =>
      rw [List.drop_eq_nil_of_le (by omega)]
      rfl
  | succ count induction =>
      have inside : start < children.length := by omega
      rw [List.drop_eq_getElem_cons inside, withLater, List.flatMap_cons, List.range'_succ,
        List.flatMap_cons, List.getElem?_eq_getElem inside]
      rw [induction (start + 1) (by omega)]

theorem merge_chosen_absent (pattern : Pattern) (rest : List Pattern) (captures : Captures)
    (later : Assignment) :
    tree.mergeChosen children (pattern :: rest) captures (none :: later) =
      tree.mergeChosen children rest captures later := by
  simp [mergeChosen, chosen]

theorem merge_chosen_present (pattern : Pattern) (rest : List Pattern)
    (captures bound : Captures) (placement : Placement) (later : Assignment)
    (choice : (tree.matchesOfChild children pattern placement.child)[placement.choice]? =
      some bound) :
    tree.mergeChosen children (pattern :: rest) captures (some placement :: later) =
      tree.mergeChosen children rest (captures.merge tree bound) later := by
  simp [mergeChosen, chosen, choice]

theorem map_merge_placing (pattern : Pattern) (rest : List Pattern) (captures : Captures)
    (start : Nat) (continuations : Nat → List Assignment) :
    (tree.placing children pattern start continuations).map
        (tree.mergeChosen children (pattern :: rest) captures) =
      (List.range' start (children.length - start)).flatMap fun position =>
        (tree.matchesOfChild children pattern position).flatMap fun bound =>
          (continuations (position + 1)).map
            (tree.mergeChosen children rest (captures.merge tree bound)) := by
  rw [placing, List.map_flatMap]
  congr 1
  funext position
  rw [List.map_flatMap]
  apply flat_map_range_length
  intro choice bound listed
  rw [List.map_map]
  apply List.map_congr_left
  intro later _
  exact tree.merge_chosen_present children pattern rest captures bound _ later listed

/-- One level of the search: the first pattern is placed in every possible way. -/
theorem match_siblings_placing (pattern : Pattern) (rest : List Pattern) (captures : Captures)
    (start : Nat)
    (behind : ∀ position merged,
      tree.matchSiblings tree.matchAt rest (children.drop position) merged =
        (tree.admissible children rest position).map (tree.mergeChosen children rest merged)) :
    ((withLater (children.drop start)).flatMap fun (child, later) =>
        (tree.matchAt child pattern).flatMap fun bound =>
          tree.matchSiblings tree.matchAt rest later (captures.merge tree bound)) =
      (tree.placing children pattern start (tree.admissible children rest)).map
        (tree.mergeChosen children (pattern :: rest) captures) := by
  rw [map_merge_placing, with_later_positions]
  congr 1
  funext position
  cases listed : children[position]? with
  | none => simp [matchesOfChild, listed]
  | some child => simp only [matchesOfChild, listed, behind]

theorem match_siblings_admissible (patterns : List Pattern) (captures : Captures)
    (start : Nat) :
    tree.matchSiblings tree.matchAt patterns (children.drop start) captures =
      (tree.admissible children patterns start).map
        (tree.mergeChosen children patterns captures) := by
  induction patterns generalizing captures start with
  | nil => simp [matchSiblings, admissible, mergeChosen, chosen]
  | cons pattern rest induction =>
      have placed := tree.match_siblings_placing children pattern rest captures start
        (fun position merged => induction merged position)
      rw [matchSiblings, placed, admissible]
      by_cases retry : tree.placing children pattern start (tree.admissible children rest) = [] ∧
          pattern.isOptional = true
      · rw [if_pos (by simpa using retry), if_pos (by simpa using retry), induction, List.map_map]
        apply List.map_congr_left
        intro later _
        exact (tree.merge_chosen_absent children pattern rest captures later).symm
      · rw [if_neg (by simpa using retry), if_neg (by simpa using retry)]

/-- Matching patterns in order against children reports the admissible assignments, each with its
captures merged from left to right; they come in lexicographic order and none comes twice. Nothing
is reported exactly where no assignment exists, admissible or not. -/
theorem match_children_enumerates (patterns : List Pattern) (captures : Captures) (start : Nat) :
    tree.matchChildren children patterns captures start =
        (tree.admissible children patterns start).map
          (tree.mergeChosen children patterns captures) ∧
      (∀ assignment, assignment ∈ tree.admissible children patterns start ↔
        tree.Admits children patterns start assignment) ∧
      (tree.admissible children patterns start).Pairwise Assignment.Before ∧
      (tree.admissible children patterns start).Nodup ∧
      (tree.matchChildren children patterns captures start = [] ↔
        ∀ assignment, ¬tree.Assigns children patterns start assignment) := by
  have enumerated : tree.matchChildren children patterns captures start =
      (tree.admissible children patterns start).map
        (tree.mergeChosen children patterns captures) :=
    tree.match_siblings_admissible children patterns captures start
  have ordered := tree.admissible_ordered children patterns start
  refine ⟨enumerated, tree.mem_admissible children patterns start, ordered,
    ordered.imp Assignment.before_ne, ?_⟩
  rw [enumerated, List.map_eq_nil_iff]
  exact tree.admissible_eq_nil children patterns start

end Tree

end SyntaxGraph
