import SyntaxGraph.Proofs.Engine.Search

/-!
The gate of a search. Predicates are evaluated in order up to the first one that does not pass, and
a missing ancestor there lets the candidate through. Predicates behind it are not evaluated, so the
outcome depends on their order; the exact extent of this is stated below.
-/

set_option autoImplicit false

namespace SyntaxGraph

namespace Predicate

def Passes (context : MatchContext) (predicate : Predicate) : Prop :=
  predicate.evaluate context = .ok true

def LacksAncestor (context : MatchContext) (predicate : Predicate) : Prop :=
  ∃ name, predicate.evaluate context = .error (.missingAncestor name)

/-- Neither passes nor lacks an ancestor: false, or raises another error. -/
def Fails (context : MatchContext) (predicate : Predicate) : Prop :=
  ¬predicate.Passes context ∧ ¬predicate.LacksAncestor context

/-- A predicate lacks an ancestor, and everything in front of it passes. -/
def OpensAt (context : MatchContext) (earlier : List Predicate) (lacking : Predicate) : Prop :=
  (∀ predicate ∈ earlier, predicate.Passes context) ∧ lacking.LacksAncestor context

end Predicate

namespace SearchInput

variable (input : SearchInput) (above : List NodeId) (candidate : Match)

def contextOf : MatchContext :=
  ⟨⟨input.tree, candidate.start, candidate.captures, above⟩, input.builder⟩

def Accepts (predicates : List Predicate) : Prop := (input.judge above candidate predicates).1 = true

theorem accepts_nil : input.Accepts above candidate [] := rfl

theorem accepts_behind_passing (predicate : Predicate) (rest : List Predicate)
    (passes : predicate.Passes (input.contextOf above candidate)) :
    input.Accepts above candidate (predicate :: rest) ↔ input.Accepts above candidate rest := by
  have evaluated : predicate.evaluate (input.contextOf above candidate) = .ok true := passes
  have same : Predicate.allPass (input.contextOf above candidate) (predicate :: rest) =
      Predicate.allPass (input.contextOf above candidate) rest := by
    rw [Predicate.allPass, evaluated]
    rfl
  unfold contextOf at same
  simp only [Accepts, judge, same]

theorem accepts_at_first_obstacle (predicate : Predicate) (rest : List Predicate)
    (obstacle : ¬predicate.Passes (input.contextOf above candidate)) :
    input.Accepts above candidate (predicate :: rest) ↔
      predicate.LacksAncestor (input.contextOf above candidate) := by
  unfold Predicate.Passes at obstacle
  cases evaluated : predicate.evaluate (input.contextOf above candidate) with
  | ok passed =>
      have failed : passed = false := by
        cases passed with
        | true => exact absurd evaluated obstacle
        | false => rfl
      subst failed
      have stopped : Predicate.allPass (input.contextOf above candidate) (predicate :: rest) =
          .ok false := by
        rw [Predicate.allPass, evaluated]
        rfl
      unfold contextOf at stopped
      simp [Accepts, judge, stopped, Predicate.LacksAncestor, evaluated]
  | error cause =>
      have stopped : Predicate.allPass (input.contextOf above candidate) (predicate :: rest) =
          .error cause := by
        rw [Predicate.allPass, evaluated]
        rfl
      unfold contextOf at stopped
      cases cause <;>
        simp [Accepts, judge, stopped, Predicate.LacksAncestor, evaluated,
          ResolveError.isMissingAncestor]

theorem accepts_iff (predicates : List Predicate) :
    input.Accepts above candidate predicates ↔
      (∀ predicate ∈ predicates, predicate.Passes (input.contextOf above candidate)) ∨
        ∃ earlier lacking later, predicates = earlier ++ lacking :: later ∧
          Predicate.OpensAt (input.contextOf above candidate) earlier lacking := by
  induction predicates with
  | nil => simp [accepts_nil]
  | cons first rest induction =>
      by_cases passes : first.Passes (input.contextOf above candidate)
      · rw [accepts_behind_passing input above candidate first rest passes, induction]
        constructor
        · rintro (allPass | ⟨earlier, lacking, later, split, opens⟩)
          · exact Or.inl (List.forall_mem_cons.2 ⟨passes, allPass⟩)
          · exact Or.inr ⟨first :: earlier, lacking, later, by rw [split, List.cons_append],
              List.forall_mem_cons.2 ⟨passes, opens.1⟩, opens.2⟩
        · rintro (allPass | ⟨earlier, lacking, later, split, opens⟩)
          · exact Or.inl (List.forall_mem_cons.1 allPass).2
          · cases earlier with
            | nil =>
                obtain ⟨name, lacks⟩ := opens.2
                rw [← (List.cons.inj split).1, show first.evaluate _ = _ from passes] at lacks
                cases lacks
            | cons head earlier =>
                exact Or.inr ⟨earlier, lacking, later, (List.cons.inj split).2,
                  (List.forall_mem_cons.1 opens.1).2, opens.2⟩
      · rw [accepts_at_first_obstacle input above candidate first rest passes]
        constructor
        · intro lacks
          exact Or.inr ⟨[], first, rest, rfl, by simp, lacks⟩
        · rintro (allPass | ⟨earlier, lacking, later, split, opens⟩)
          · exact absurd (allPass first (by simp)) passes
          · cases earlier with
            | nil =>
                rw [(List.cons.inj split).1]
                exact opens.2
            | cons head earlier =>
                rw [(List.cons.inj split).1] at passes
                exact absurd (opens.1 head (by simp)) passes

/-- A candidate is accepted when all its predicates pass, or when the first that does not lacks an
ancestor. That no accepted candidate has a failing predicate is therefore true of those entries
only in which nothing fails behind the first obstacle, if that one lacks an ancestor. A rejected
entry becomes an accepted one in another order exactly if some predicate of it lacks an ancestor. -/
theorem gate_depends_on_order (predicates : List Predicate) :
    let context := input.contextOf above candidate
    (input.Accepts above candidate predicates ↔
      (∀ predicate ∈ predicates, predicate.Passes context) ∨
        ∃ earlier lacking later, predicates = earlier ++ lacking :: later ∧
          Predicate.OpensAt context earlier lacking) ∧
    ((input.Accepts above candidate predicates →
        ∀ predicate ∈ predicates, predicate.Passes context ∨ predicate.LacksAncestor context) ↔
      ¬∃ earlier lacking later, predicates = earlier ++ lacking :: later ∧
        Predicate.OpensAt context earlier lacking ∧
          ∃ predicate ∈ later, predicate.Fails context) ∧
    (¬input.Accepts above candidate predicates →
      ((∃ reordered, List.Perm reordered predicates ∧ input.Accepts above candidate reordered) ↔
        ∃ predicate ∈ predicates, predicate.LacksAncestor context)) := by
  intro context
  refine ⟨input.accepts_iff above candidate predicates, ?_, ?_⟩
  · constructor
    · rintro sound ⟨earlier, lacking, later, split, opens, failing, member, fails⟩
      have accepted := (input.accepts_iff above candidate predicates).2
        (Or.inr ⟨earlier, lacking, later, split, opens⟩)
      rcases sound accepted failing (by simp [split, member]) with passes | lacks
      · exact fails.1 passes
      · exact fails.2 lacks
    · intro harmless accepted predicate member
      rcases (input.accepts_iff above candidate predicates).1 accepted with
        allPass | ⟨earlier, lacking, later, split, opens⟩
      · exact Or.inl (allPass predicate member)
      · rw [split] at member
        rcases List.mem_append.1 member with before | atOrBehind
        · exact Or.inl (opens.1 predicate before)
        · rcases List.mem_cons.1 atOrBehind with same | behind
          · rw [same]
            exact Or.inr opens.2
          · by_contra fails
            exact harmless ⟨earlier, lacking, later, split, opens, predicate, behind,
              not_or.1 fails⟩
  · intro rejected
    constructor
    · rintro ⟨reordered, permuted, accepted⟩
      rcases (input.accepts_iff above candidate reordered).1 accepted with
        allPass | ⟨earlier, lacking, later, split, opens⟩
      · have accepted := (input.accepts_iff above candidate predicates).2
          (Or.inl fun predicate member => allPass predicate (permuted.mem_iff.2 member))
        exact absurd accepted rejected
      · exact ⟨lacking, permuted.mem_iff.1 (by simp [split]), opens.2⟩
    · rintro ⟨lacking, member, lacks⟩
      obtain ⟨earlier, later, split⟩ := List.append_of_mem member
      refine ⟨lacking :: (earlier ++ later), ?_, ?_⟩
      · rw [split]
        exact List.perm_middle.symm
      · exact (input.accepts_iff above candidate _).2
          (Or.inr ⟨[], lacking, earlier ++ later, rfl, by simp, lacks⟩)

def lackingParent : Predicate :=
  .equals (.mk "@parent" [.reference (.mk "parent" false [])]) (.mk "'x'" [.literal "x"])

def neverEqual : Predicate := .equals (.mk "'a'" [.literal "a"]) (.mk "'b'" [.literal "b"])

def gatedInput (predicates : List Predicate) : SearchInput :=
  { patterns := [⟨.node "def" [] [] [] false, predicates, []⟩]
    tree := ⟨#[⟨0, "def", "def", ⟨0, 3, 1, 0⟩, none, []⟩], some 0⟩
    builder := none }

/-- The predicate that is false counts when it stands first and is excused when it stands last. -/
theorem failing_predicate_excused :
    (∃ found ∈ MatchNode.flattenAll (gatedInput [lackingParent, neverEqual]).search.1,
      neverEqual.Fails ((gatedInput [lackingParent, neverEqual]).contextOf
        ((gatedInput [lackingParent, neverEqual]).enclosing found.start) found)) ∧
      MatchNode.flattenAll (gatedInput [neverEqual, lackingParent]).search.1 = [] := by
  refine ⟨⟨⟨0, 0, StringMap.empty.insert "def" 0⟩, ?_, ?_⟩, rfl⟩
  · exact List.mem_singleton_self _
  · have evaluated : neverEqual.evaluate ((gatedInput [lackingParent, neverEqual]).contextOf
        ((gatedInput [lackingParent, neverEqual]).enclosing 0)
        ⟨0, 0, StringMap.empty.insert "def" 0⟩) = .ok false := rfl
    constructor
    · intro passes
      rw [Predicate.Passes, evaluated] at passes
      cases passes
    · rintro ⟨name, lacks⟩
      rw [evaluated] at lacks
      cases lacks

end SearchInput

end SyntaxGraph
