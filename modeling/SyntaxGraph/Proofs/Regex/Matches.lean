import Mathlib.Data.List.Basic
import SyntaxGraph.Regex.Basic

/-!
What it means for a part of a text to match an expression, as a relation between the positions in
front of the part and behind it. The search for ends of matches computes that relation: it keeps
its sets of positions increasing, and a position is in the resulting set exactly if the relation
leads to it from one of the given positions.
-/

set_option autoImplicit false

namespace SyntaxGraph

namespace Regex

/-- A number of steps, one behind the other. -/
def Steps (leads : Nat → Nat → Prop) : Nat → Nat → Nat → Prop
  | 0, start, stop => start = stop
  | count + 1, start, stop => ∃ middle, leads start middle ∧ Steps leads count middle stop

/-- The part of a text between two positions matches. A greatest count that is below the least one
allows no more repetitions than the least. -/
def Matches (text : Array Char) : Regex → Nat → Nat → Prop
  | .empty, start, stop => start = stop
  | .set members, start, stop =>
      stop = start + 1 ∧ ∃ character, text[start]? = some character ∧ members.contains character
  | .look condition, start, stop =>
      start = stop ∧ condition.holds (characterBefore text start) text[start]?
  | .sequence first second, start, stop =>
      ∃ middle, Matches text first start middle ∧ Matches text second middle stop
  | .choice left right, start, stop =>
      Matches text left start stop ∨ Matches text right start stop
  | .repeated inner least greatest, start, stop =>
      ∃ count, least ≤ count ∧ (∀ most, greatest = some most → count ≤ max least most) ∧
        Steps (Matches text inner) count start stop

/-- A step never leads back, nor out of a text of that size. -/
def IsForward (size : Nat) (leads : Nat → Nat → Prop) : Prop :=
  ∀ start stop, leads start stop → start ≤ stop ∧ (start ≤ size → stop ≤ size)

section Steps

variable {size : Nat} {leads : Nat → Nat → Prop}

theorem IsForward.steps (forward : IsForward size leads) (count : Nat) :
    IsForward size (Steps leads count) := by
  induction count with
  | zero =>
    rintro start stop rfl
    exact ⟨Nat.le_refl _, id⟩
  | succ count ih =>
    rintro start stop ⟨middle, step, rest⟩
    obtain ⟨le_middle, middle_within⟩ := forward _ _ step
    obtain ⟨le_stop, stop_within⟩ := ih _ _ rest
    exact ⟨Nat.le_trans le_middle le_stop, stop_within ∘ middle_within⟩

theorem Steps.append {first second start middle stop : Nat} (front : Steps leads first start middle)
    (back : Steps leads second middle stop) : Steps leads (first + second) start stop := by
  induction first generalizing start with
  | zero =>
    cases (front : start = middle)
    rwa [Nat.zero_add]
  | succ count ih =>
    obtain ⟨next, step, rest⟩ := front
    rw [Nat.add_right_comm]
    exact ⟨next, step, ih rest⟩

theorem Steps.split {first second start stop : Nat}
    (steps : Steps leads (first + second) start stop) :
    ∃ middle, Steps leads first start middle ∧ Steps leads second middle stop := by
  induction first generalizing start with
  | zero =>
    rw [Nat.zero_add] at steps
    exact ⟨start, rfl, steps⟩
  | succ count ih =>
    rw [Nat.add_right_comm] at steps
    obtain ⟨next, step, rest⟩ := steps
    obtain ⟨middle, front, back⟩ := ih rest
    exact ⟨middle, ⟨next, step, front⟩, back⟩

/-- Steps that stay where they are can be left out, so that no more of them are needed than there
are positions to pass. -/
theorem Steps.shorten (forward : IsForward size leads) {count start stop : Nat}
    (steps : Steps leads count start stop) :
    ∃ fewer, fewer ≤ count ∧ fewer ≤ stop - start ∧ Steps leads fewer start stop := by
  induction count generalizing start with
  | zero => exact ⟨0, Nat.le_refl _, Nat.zero_le _, steps⟩
  | succ count ih =>
    obtain ⟨middle, step, rest⟩ := steps
    obtain ⟨fewer, le_count, le_gap, short⟩ := ih rest
    have le_middle := (forward _ _ step).1
    have le_stop := (forward.steps _ _ _ rest).1
    rcases Nat.lt_or_eq_of_le le_middle with moves | stays
    · exact ⟨fewer + 1, by omega, by omega, middle, step, short⟩
    · subst stays
      exact ⟨fewer, by omega, le_gap, short⟩

theorem Steps.leave (forward : IsForward size leads) {count start stop : Nat}
    (steps : Steps leads count start stop) :
    start = stop ∨
      ∃ middle fewer, leads start middle ∧ start < middle ∧ Steps leads fewer middle stop := by
  induction count with
  | zero => exact .inl steps
  | succ count ih =>
    obtain ⟨middle, step, rest⟩ := steps
    rcases Nat.lt_or_eq_of_le (forward _ _ step).1 with moves | stays
    · exact .inr ⟨middle, count, step, moves, rest⟩
    · subst stays
      exact ih rest

end Steps

/-- A match never leads back, nor out of the text. -/
theorem matches_forward (text : Array Char) (regex : Regex) :
    IsForward text.size (Matches text regex) := by
  induction regex with
  | empty =>
    rintro start stop rfl
    exact ⟨Nat.le_refl _, id⟩
  | set members =>
    rintro start stop ⟨rfl, character, found, -⟩
    have inside : start < text.size := (Array.getElem?_eq_some_iff.mp found).1
    exact ⟨Nat.le_succ _, fun _ => inside⟩
  | look condition =>
    rintro start stop ⟨rfl, -⟩
    exact ⟨Nat.le_refl _, id⟩
  | sequence first second first_forward second_forward =>
    rintro start stop ⟨middle, front, back⟩
    obtain ⟨le_middle, middle_within⟩ := first_forward _ _ front
    obtain ⟨le_stop, stop_within⟩ := second_forward _ _ back
    exact ⟨Nat.le_trans le_middle le_stop, stop_within ∘ middle_within⟩
  | choice left right left_forward right_forward =>
    rintro start stop (matched | matched)
    · exact left_forward _ _ matched
    · exact right_forward _ _ matched
  | repeated inner least greatest inner_forward =>
    rintro start stop ⟨count, -, -, steps⟩
    exact inner_forward.steps count _ _ steps

-- Sets of positions

structure IsPositions (size : Nat) (positions : List Nat) : Prop where
  increasing : positions.Pairwise (· < ·)
  within : ∀ position ∈ positions, position ≤ size

theorem mem_insertPosition (position : Nat) (positions : List Nat) (other : Nat) :
    other ∈ insertPosition position positions ↔ other = position ∨ other ∈ positions := by
  induction positions with
  | nil => simp [insertPosition]
  | cons first rest ih =>
    simp only [insertPosition]
    split
    · simp
    · split
      · simp_all
      · simp only [List.mem_cons, ih]
        tauto

theorem increasing_insertPosition (position : Nat) {positions : List Nat}
    (increasing : positions.Pairwise (· < ·)) :
    (insertPosition position positions).Pairwise (· < ·) := by
  induction positions with
  | nil => simp [insertPosition]
  | cons first rest ih =>
    rw [List.pairwise_cons] at increasing
    obtain ⟨first_least, rest_increasing⟩ := increasing
    simp only [insertPosition]
    split
    · next before =>
      refine List.pairwise_cons.mpr ⟨fun other among => ?_, .cons first_least rest_increasing⟩
      rcases List.mem_cons.mp among with rfl | among
      · exact before
      · exact Nat.lt_trans before (first_least _ among)
    · split
      · exact .cons first_least rest_increasing
      · refine .cons (fun other among => ?_) (ih rest_increasing)
        rcases (mem_insertPosition _ _ _).mp among with rfl | among
        · omega
        · exact first_least _ among

@[simp] theorem mem_joinPositions (added known : List Nat) (position : Nat) :
    position ∈ joinPositions added known ↔ position ∈ added ∨ position ∈ known := by
  induction added with
  | nil => simp [joinPositions]
  | cons first rest ih =>
    rw [show joinPositions (first :: rest) known = insertPosition first (joinPositions rest known)
      from rfl, mem_insertPosition, ih, List.mem_cons, or_assoc]

theorem increasing_joinPositions (added : List Nat) {known : List Nat}
    (increasing : known.Pairwise (· < ·)) : (joinPositions added known).Pairwise (· < ·) := by
  induction added with
  | nil => exact increasing
  | cons first rest ih => exact increasing_insertPosition first ih

namespace IsPositions

variable {size : Nat} {positions : List Nat}

theorem nil (size : Nat) : IsPositions size [] := ⟨.nil, by simp⟩

theorem singleton {position : Nat} (within : position ≤ size) : IsPositions size [position] :=
  ⟨List.pairwise_singleton _ _, by simpa using within⟩

theorem filter (valid : IsPositions size positions) (keep : Nat → Bool) :
    IsPositions size (positions.filter keep) :=
  ⟨valid.increasing.filter _, fun _ among => valid.within _ (List.mem_filter.mp among).1⟩

theorem join {added : List Nat} (added_valid : IsPositions size added)
    (valid : IsPositions size positions) : IsPositions size (joinPositions added positions) := by
  refine ⟨increasing_joinPositions _ valid.increasing, fun position among => ?_⟩
  rcases (mem_joinPositions _ _ _).mp among with among | among
  · exact added_valid.within _ among
  · exact valid.within _ among

end IsPositions

/-- From positions, the step leads to those that the relation leads to. -/
structure Computes (size : Nat) (step : List Nat → List Nat) (leads : Nat → Nat → Prop) :
    Prop where
  positions : ∀ {positions}, IsPositions size positions → IsPositions size (step positions)
  mem_iff : ∀ {positions}, IsPositions size positions →
    ∀ stop, stop ∈ step positions ↔ ∃ start ∈ positions, leads start stop

namespace Computes

variable {size : Nat} {step : List Nat → List Nat} {leads : Nat → Nat → Prop}

theorem iterate (computes : Computes size step leads) (count : Nat) :
    Computes size (Regex.iterate step count) (Steps leads count) := by
  induction count with
  | zero => exact ⟨id, by simp [Regex.iterate, Steps]⟩
  | succ count ih =>
    refine ⟨fun {positions} valid => ?_, fun {positions} valid stop => ?_⟩
    · rw [Regex.iterate]
      split
      · exact .nil size
      · exact ih.positions (computes.positions valid)
    · rw [Regex.iterate]
      split
      · next none_left => simp [List.isEmpty_iff.mp none_left]
      · -- The last steps start where the first one ends.
        rw [ih.mem_iff (computes.positions valid)]
        constructor
        · rintro ⟨middle, among, steps⟩
          obtain ⟨start, start_among, first⟩ := (computes.mem_iff valid middle).mp among
          exact ⟨start, start_among, middle, first, steps⟩
        · rintro ⟨start, start_among, middle, first, steps⟩
          exact ⟨middle, (computes.mem_iff valid middle).mpr ⟨start, start_among, first⟩, steps⟩

theorem iterateUpTo (computes : Computes size step leads) (bound : Nat) :
    Computes size (Regex.iterateUpTo step bound)
      (fun start stop => ∃ count ≤ bound, Steps leads count start stop) := by
  induction bound with
  | zero => exact ⟨id, by simp [Regex.iterateUpTo, Steps]⟩
  | succ bound ih =>
    refine ⟨fun {positions} valid => ?_, fun {positions} valid stop => ?_⟩
    · rw [Regex.iterateUpTo]
      split
      · exact .nil size
      · exact .join valid (ih.positions (computes.positions valid))
    · rw [Regex.iterateUpTo]
      split
      · next none_left => simp [List.isEmpty_iff.mp none_left]
      · rw [mem_joinPositions, ih.mem_iff (computes.positions valid)]
        constructor
        · rintro (among | ⟨middle, among, count, le, steps⟩)
          · exact ⟨stop, among, 0, Nat.zero_le _, rfl⟩
          · obtain ⟨start, start_among, first⟩ := (computes.mem_iff valid middle).mp among
            exact ⟨start, start_among, count + 1, Nat.succ_le_succ le, middle, first, steps⟩
        · rintro ⟨start, start_among, count, le, steps⟩
          cases count with
          | zero =>
            cases (steps : start = stop)
            exact .inl start_among
          | succ count =>
            obtain ⟨middle, first, steps⟩ := steps
            exact .inr ⟨middle, (computes.mem_iff valid middle).mpr ⟨start, start_among, first⟩,
              count, Nat.le_of_succ_le_succ le, steps⟩

/-- The closure deals with positions in increasing order. The bound is large enough as long as it
reaches from every position that is left beyond the end of the text. -/
theorem closure_of_reach (computes : Computes size step leads) (forward : IsForward size leads)
    {bound : Nat} {positions : List Nat} (valid : IsPositions size positions)
    (reach : ∀ position ∈ positions, size < position + bound) :
    IsPositions size (Regex.closure step bound positions) ∧
      ∀ stop, stop ∈ Regex.closure step bound positions ↔
        ∃ start ∈ positions, ∃ count, Steps leads count start stop := by
  induction bound generalizing positions with
  | zero =>
    have empty : positions = [] :=
      List.eq_nil_iff_forall_not_mem.mpr fun position among =>
        absurd (reach position among) (Nat.not_lt.mpr (valid.within position among))
    simpa [Regex.closure, empty] using IsPositions.nil size
  | succ bound ih =>
    cases positions with
    | nil => simpa [Regex.closure] using IsPositions.nil size
    | cons position rest =>
      obtain ⟨position_least, rest_increasing⟩ := List.pairwise_cons.mp valid.increasing
      have alone : IsPositions size [position] := .singleton (valid.within _ List.mem_cons_self)
      have rest_valid : IsPositions size rest :=
        ⟨rest_increasing, fun other among => valid.within _ (List.mem_cons_of_mem _ among)⟩
      have reached_valid := (computes.positions alone).filter fun next => position < next
      have mem_reached : ∀ next,
          next ∈ (step [position]).filter (fun next => decide (position < next)) ↔
            leads position next ∧ position < next := by
        simp [computes.mem_iff alone]
      rw [Regex.closure]
      generalize (step [position]).filter (fun next => decide (position < next)) = reached
        at reached_valid mem_reached ⊢
      have beyond : ∀ next ∈ joinPositions reached rest, position < next := by
        intro next among
        rcases (mem_joinPositions _ _ _).mp among with among | among
        · exact ((mem_reached next).mp among).2
        · exact position_least next among
      have reach_here := reach position List.mem_cons_self
      obtain ⟨later_valid, mem_later⟩ := ih (reached_valid.join rest_valid) fun next among => by
        have := beyond next among
        omega
      refine ⟨⟨.cons (fun stop among => ?_) later_valid.increasing, fun stop among => ?_⟩,
        fun stop => ?_⟩
      · obtain ⟨start, start_among, count, steps⟩ := (mem_later stop).mp among
        exact Nat.lt_of_lt_of_le (beyond start start_among) (forward.steps count _ _ steps).1
      · rcases List.mem_cons.mp among with rfl | among
        · exact alone.within _ List.mem_cons_self
        · exact later_valid.within _ among
      · simp only [List.mem_cons, mem_later, mem_joinPositions, mem_reached]
        constructor
        · rintro (rfl | ⟨start, ⟨first, -⟩ | among, count, steps⟩)
          · exact ⟨stop, .inl rfl, 0, rfl⟩
          · exact ⟨position, .inl rfl, count + 1, start, first, steps⟩
          · exact ⟨start, .inr among, count, steps⟩
        · rintro ⟨start, rfl | among, count, steps⟩
          · -- Whatever can be reached from the first position is that position itself, or lies
            -- behind a later one.
            rcases steps.leave forward with stays | ⟨middle, fewer, first, moves, steps⟩
            · exact .inl stays.symm
            · exact .inr ⟨middle, .inl ⟨first, moves⟩, fewer, steps⟩
          · exact .inr ⟨start, .inr among, count, steps⟩

theorem closure (computes : Computes size step leads) (forward : IsForward size leads) :
    Computes size (Regex.closure step (size + 1))
      (fun start stop => ∃ count, Steps leads count start stop) where
  positions valid := (computes.closure_of_reach forward valid fun _ _ => by omega).1
  mem_iff valid := (computes.closure_of_reach forward valid fun _ _ => by omega).2

end Computes

/-- As many repetitions as the text has positions lead wherever more of them do. -/
theorem steps_within_iff {size : Nat} {leads : Nat → Nat → Prop} (forward : IsForward size leads)
    (bound : Nat) {start stop : Nat} (within : start ≤ size) :
    (∃ count ≤ min bound (size + 1), Steps leads count start stop) ↔
      ∃ count ≤ bound, Steps leads count start stop := by
  constructor
  · rintro ⟨count, le, steps⟩
    exact ⟨count, Nat.le_trans le (Nat.min_le_left _ _), steps⟩
  · rintro ⟨count, le, steps⟩
    obtain ⟨fewer, le_count, le_gap, short⟩ := steps.shorten forward
    have stop_within := (forward.steps count _ _ steps).2 within
    exact ⟨fewer, by omega, short⟩

theorem matches_repeated_iff (text : Array Char) (inner : Regex) (least : Nat)
    (greatest : Option Nat) (start stop : Nat) :
    Matches text (.repeated inner least greatest) start stop ↔
      ∃ middle, Steps (Matches text inner) least start middle ∧
        ∃ further, (∀ most, greatest = some most → further ≤ most - least) ∧
          Steps (Matches text inner) further middle stop := by
  rw [Matches]
  constructor
  · rintro ⟨count, at_least, at_most, steps⟩
    obtain ⟨further, rfl⟩ := Nat.exists_eq_add_of_le at_least
    obtain ⟨middle, required, more⟩ := steps.split
    refine ⟨middle, required, further, fun most bounded => ?_, more⟩
    have := at_most most bounded
    omega
  · rintro ⟨middle, required, further, at_most, more⟩
    refine ⟨least + further, Nat.le_add_right _ _, fun most bounded => ?_, required.append more⟩
    have := at_most most bounded
    omega

/-- The position behind a character of a set. -/
def pass (text : Array Char) (members : CharSet) (position : Nat) : Option Nat :=
  (text[position]?.filter members.contains).map fun _ => position + 1

theorem ends_set (text : Array Char) (members : CharSet) (positions : List Nat) :
    ends text (.set members) positions = positions.filterMap (pass text members) := by
  rw [ends]
  apply congrArg (List.filterMap · positions)
  funext position
  cases found : text[position]? with
  | none => simp [pass, found]
  | some character =>
    cases member : members.contains character <;> simp [pass, found, member, Option.filter]

theorem pass_eq_some_iff (text : Array Char) (members : CharSet) (start stop : Nat) :
    pass text members start = some stop ↔ Matches text (.set members) start stop := by
  simp only [pass, Option.map_eq_some_iff, Option.filter_eq_some_iff, Matches]
  constructor
  · rintro ⟨character, found, rfl⟩
    exact ⟨rfl, character, found⟩
  · rintro ⟨rfl, character, found⟩
    exact ⟨character, found, rfl⟩

/-- The search for ends of matches computes the relation. -/
theorem ends_computes (text : Array Char) (regex : Regex) :
    Computes text.size (ends text regex) (Matches text regex) := by
  induction regex with
  | empty => exact ⟨id, by simp [ends, Matches]⟩
  | set members =>
    refine ⟨fun {positions} valid => ?_, fun {positions} valid stop => ?_⟩
    · rw [ends_set]
      refine ⟨valid.increasing.filterMap _ ?_, fun stop among => ?_⟩
      · intro first second before stop first_passes other second_passes
        cases ((pass_eq_some_iff _ _ _ _).mp first_passes).1
        cases ((pass_eq_some_iff _ _ _ _).mp second_passes).1
        exact Nat.succ_lt_succ before
      · obtain ⟨start, start_among, passes⟩ := List.mem_filterMap.mp among
        have matched := (pass_eq_some_iff _ _ _ _).mp passes
        exact (matches_forward text _ _ _ matched).2 (valid.within _ start_among)
    · rw [ends_set, List.mem_filterMap]
      simp only [pass_eq_some_iff]
  | look condition =>
    refine ⟨fun valid => valid.filter _, fun valid stop => ?_⟩
    simp only [ends, Matches, List.mem_filter]
    constructor
    · rintro ⟨among, holds⟩
      exact ⟨stop, among, rfl, holds⟩
    · rintro ⟨start, among, rfl, holds⟩
      exact ⟨among, holds⟩
  | sequence first second first_computes second_computes =>
    refine ⟨fun valid => second_computes.positions (first_computes.positions valid),
      fun valid stop => ?_⟩
    rw [ends, second_computes.mem_iff (first_computes.positions valid)]
    simp only [first_computes.mem_iff valid, Matches]
    constructor
    · rintro ⟨middle, ⟨start, among, front⟩, back⟩
      exact ⟨start, among, middle, front, back⟩
    · rintro ⟨start, among, middle, front, back⟩
      exact ⟨middle, ⟨start, among, front⟩, back⟩
  | choice left right left_computes right_computes =>
    refine ⟨fun valid => (left_computes.positions valid).join (right_computes.positions valid),
      fun valid stop => ?_⟩
    rw [ends, mem_joinPositions, left_computes.mem_iff valid, right_computes.mem_iff valid]
    simp only [Matches, and_or_left, exists_or]
  | repeated inner least greatest inner_computes =>
    have forward := matches_forward text inner
    have required := inner_computes.iterate least
    cases greatest with
    | none =>
      have further := inner_computes.closure forward
      refine ⟨fun valid => further.positions (required.positions valid), fun valid stop => ?_⟩
      rw [ends, further.mem_iff (required.positions valid)]
      simp only [required.mem_iff valid, matches_repeated_iff]
      constructor
      · rintro ⟨middle, ⟨start, among, front⟩, count, back⟩
        exact ⟨start, among, middle, front, count, by simp, back⟩
      · rintro ⟨start, among, middle, front, count, -, back⟩
        exact ⟨middle, ⟨start, among, front⟩, count, back⟩
    | some most =>
      have further := inner_computes.iterateUpTo (min (most - least) (text.size + 1))
      refine ⟨fun valid => further.positions (required.positions valid), fun valid stop => ?_⟩
      rw [ends, further.mem_iff (required.positions valid)]
      simp only [required.mem_iff valid, matches_repeated_iff]
      constructor
      · rintro ⟨middle, ⟨start, among, front⟩, count, le, back⟩
        refine ⟨start, among, middle, front, count, fun limit same => ?_, back⟩
        cases same
        exact Nat.le_trans le (Nat.min_le_left _ _)
      · rintro ⟨start, among, middle, front, count, le, back⟩
        have within := (forward.steps least _ _ front).2 (valid.within _ among)
        exact ⟨middle, ⟨start, among, front⟩,
          (steps_within_iff forward _ within).mpr ⟨count, le most rfl, back⟩⟩

theorem matchesPart_iff (regex : Regex) (text : String) :
    regex.matchesPart text = true ↔
      ∃ start ≤ text.toList.length, ∃ stop, Matches text.toList.toArray regex start stop := by
  have starts : IsPositions text.toList.length (List.range (text.toList.length + 1)) :=
    ⟨List.pairwise_lt_range, fun position among => Nat.le_of_lt_succ (List.mem_range.mp among)⟩
  have reached (stop : Nat) :=
    (ends_computes text.toList.toArray regex).mem_iff starts stop
  rw [matchesPart, Bool.not_eq_true', List.isEmpty_eq_false_iff_exists_mem]
  constructor
  · rintro ⟨stop, among⟩
    obtain ⟨start, within, matched⟩ := (reached stop).mp among
    exact ⟨start, Nat.le_of_lt_succ (List.mem_range.mp within), stop, matched⟩
  · rintro ⟨start, within, stop, matched⟩
    exact ⟨stop, (reached stop).mpr
      ⟨start, List.mem_range.mpr (Nat.lt_succ_of_le within), matched⟩⟩

-- Anchors

def betweenAnchors (inner : Regex) : Regex :=
  .sequence (.look .textStart) (.sequence inner (.sequence (.look .textEnd) .empty))

theorem holds_textStart_iff (text : Array Char) {position : Nat} (within : position ≤ text.size) :
    Look.textStart.holds (characterBefore text position) text[position]? = true ↔
      position = 0 := by
  cases position with
  | zero => simp [Look.holds, characterBefore]
  | succ previous =>
    have inside : previous < text.size := within
    simp [Look.holds, characterBefore, inside]

theorem holds_textEnd_iff (text : Array Char) (position : Nat) :
    Look.textEnd.holds (characterBefore text position) text[position]? = true ↔
      text.size ≤ position := by
  simp [Look.holds]

end Regex

end SyntaxGraph
