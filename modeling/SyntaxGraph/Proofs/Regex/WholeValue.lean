import SyntaxGraph.Document.Predicate
import SyntaxGraph.Proofs.Converter.Macro
import SyntaxGraph.Proofs.Regex.Anchored

/-!
Predicates that a whole value matches a pattern, with any engine that keeps to what is documented of
regular expressions. The engine never sees the pattern by itself, but only the text with the anchors
around it. For a pattern that is well-formed by itself that makes no difference; other texts may
close the group that the anchors stand around.
-/

set_option autoImplicit false

namespace SyntaxGraph

/-- Regular expressions as they are documented: which patterns are well-formed, what they are made of,
and between which positions of a text they match. A position is the number of characters in front
of it. -/
structure RegexLanguage where
  Expr : Type
  read? : String → Option Expr
  textStart : Expr
  textEnd : Expr
  group : Expr → Expr
  sequence : Expr → Expr → Expr
  Matches : Expr → String → Nat → Nat → Prop

/-- A match from the first character of a text to the last. -/
def RegexLanguage.MatchesWhole (language : RegexLanguage) (regex : language.Expr) (text : String) :
    Prop :=
  language.Matches regex text 0 text.length

/-- What is documented of an engine. -/
structure RegexEngine.Follows (engine : RegexEngine) (language : RegexLanguage) : Prop where
  /-- What compiles is well-formed, and it is tested whether there is a match anywhere in a text. -/
  tests : ∀ pattern test, engine pattern = some test → ∃ regex, language.read? pattern = some regex ∧
    ∀ text, test text = true ↔ ∃ start stop, language.Matches regex text start stop
  /-- A caret, a group without capture, and a dollar sign follow one another. Settings that a pattern
  makes end with the group that it stands in, so both signs are for the ends of the text. -/
  reads_anchored : ∀ pattern inner whole, language.read? pattern = some inner →
    language.read? (anchored pattern) = some whole →
      whole = language.sequence language.textStart
        (language.sequence (language.group inner) language.textEnd)
  matches_start : ∀ text start stop,
    language.Matches language.textStart text start stop ↔ start = 0 ∧ stop = 0
  matches_end : ∀ text start stop,
    language.Matches language.textEnd text start stop ↔ start = text.length ∧ stop = text.length
  matches_group : ∀ inner text start stop,
    language.Matches (language.group inner) text start stop ↔
      language.Matches inner text start stop
  matches_sequence : ∀ first second text start stop,
    language.Matches (language.sequence first second) text start stop ↔
      ∃ middle, language.Matches first text start middle ∧
        language.Matches second text middle stop

section Documented

variable {engine : RegexEngine} {language : RegexLanguage}

/-- Between the ends of a text there is room for a match of the whole text only. -/
theorem RegexEngine.Follows.matches_between (documented : engine.Follows language)
    (inner : language.Expr) (text : String) :
    (∃ start stop, language.Matches (language.sequence language.textStart
      (language.sequence (language.group inner) language.textEnd)) text start stop) ↔
      language.MatchesWhole inner text := by
  simp only [documented.matches_sequence, documented.matches_start, documented.matches_end,
    documented.matches_group, RegexLanguage.MatchesWhole]
  constructor
  · rintro ⟨start, stop, middle, ⟨-, rfl⟩, behind, matched, rfl, -⟩
    exact matched
  · intro matched
    exact ⟨0, text.length, 0, ⟨rfl, rfl⟩, text.length, matched, rfl, rfl⟩

theorem compiled_of_check {pattern : String} {test : String → Bool}
    (checked : checkRegex engine pattern = .ok test) : engine (anchored pattern) = some test := by
  rw [checkRegex] at checked
  split at checked
  · cases checked
    assumption
  · cases checked

theorem RegexEngine.Follows.tests_whole (documented : engine.Follows language) {pattern : String}
    {test : String → Bool} (checked : checkRegex engine pattern = .ok test)
    {regex : language.Expr} (alone : language.read? pattern = some regex) (text : String) :
    test text = true ↔ language.MatchesWhole regex text := by
  obtain ⟨whole, read, matches_iff⟩ := documented.tests _ _ (compiled_of_check checked)
  rw [matches_iff, documented.reads_anchored pattern regex whole alone read,
    documented.matches_between]

/-- A predicate that was accepted tests, if its pattern is well-formed by itself, whether the pattern
matches the whole value, from the first character to the last. The negated predicate is accepted
along with it and says the opposite. What keeps the value from being resolved is raised by both. -/
theorem PredicateDraft.full_match_tests_whole_value (documented : engine.Follows language)
    {value pattern : String} {predicate : Predicate}
    (accepted : (fullMatch false value pattern).check engine = .ok predicate)
    {regex : language.Expr} (alone : language.read? pattern = some regex) :
    ∃ source, Expression.parse value = .ok source ∧
      (fullMatch true value pattern).check engine = .ok predicate.not ∧
      ∀ context,
        match source.resolve context with
        | .error cause =>
            predicate.evaluate context = .error cause ∧
              predicate.not.evaluate context = .error cause
        | .ok text =>
            ∃ matched, predicate.evaluate context = .ok matched ∧
              predicate.not.evaluate context = .ok (!matched) ∧
              (matched = true ↔ language.MatchesWhole regex text) := by
  obtain ⟨source, source_checked, continued⟩ := exists_of_bind_ok accepted
  obtain ⟨test, regex_checked, built⟩ := exists_of_bind_ok continued
  cases built
  refine ⟨source, parsed_of_check source_checked, ?_, fun context => ?_⟩
  · rw [check, source_checked, regex_checked]
    rfl
  · simp only [negateIf, Bool.false_eq_true, if_false, Predicate.evaluate]
    cases source.resolve context with
    | error cause => exact ⟨rfl, rfl⟩
    | ok text => exact ⟨_, rfl, rfl, documented.tests_whole regex_checked alone text⟩

end Documented

namespace Regex

/-- The expressions that the engine of the program reads, whatever memory they take. -/
def language : RegexLanguage where
  Expr := Regex
  read? pattern := (readTree pattern).bind fun tree => (compileTree .initial tree).map (·.1)
  textStart := .look .textStart
  textEnd := .sequence (.look .textEnd) .empty
  group := id
  sequence := .sequence
  Matches regex text start stop := start ≤ text.length ∧ regex.Matches text.toList.toArray start stop

theorem size_characters (text : String) : text.toList.toArray.size = text.length := by
  rw [List.size_toArray, String.length_toList]

theorem engine_follows : RegexEngine.Follows engine language where
  tests := by
    intro pattern test compiled
    obtain ⟨regex, parsed, rfl⟩ := Option.map_eq_some_iff.mp compiled
    obtain ⟨tree, next, read, meaning, -⟩ := (parse?_eq_some_iff _ _).mp parsed
    refine ⟨regex, by simp [language, read, meaning], fun text => ?_⟩
    rw [matchesPart_iff, String.length_toList]
    simp [language]
  reads_anchored := by
    intro pattern inner whole alone between
    obtain ⟨tree, read, meaning⟩ := Option.bind_eq_some_iff.mp alone
    obtain ⟨wrapped, readWhole, meaningWhole⟩ := Option.bind_eq_some_iff.mp between
    rw [readTree_anchored read readWhole, compileTree_anchoredTree, Option.map_map] at meaningWhole
    obtain ⟨compiled, found, rfl⟩ := Option.map_eq_some_iff.mp meaning
    rw [found] at meaningWhole
    exact (Option.some.inj meaningWhole).symm
  matches_start := by
    intro text start stop
    constructor
    · rintro ⟨within, rfl, holds⟩
      have atStart := (holds_textStart_iff _ (size_characters text ▸ within)).mp holds
      exact ⟨atStart, atStart⟩
    · rintro ⟨rfl, rfl⟩
      exact ⟨Nat.zero_le _, rfl, (holds_textStart_iff _ (Nat.zero_le _)).mpr rfl⟩
  matches_end := by
    intro text start stop
    constructor
    · rintro ⟨within, _, ⟨rfl, holds⟩, rfl⟩
      have reached := (holds_textEnd_iff _ _).mp holds
      rw [size_characters] at reached
      exact ⟨Nat.le_antisymm within reached, Nat.le_antisymm within reached⟩
    · rintro ⟨rfl, rfl⟩
      have reached := Nat.le_of_eq (size_characters text)
      exact ⟨Nat.le_refl _, _, ⟨rfl, (holds_textEnd_iff _ _).mpr reached⟩, rfl⟩
  matches_group _ _ _ _ := Iff.rfl
  matches_sequence := by
    intro first second text start stop
    constructor
    · rintro ⟨within, middle, front, back⟩
      have reached := (matches_forward _ _ _ _ front).2 (size_characters text ▸ within)
      exact ⟨middle, ⟨within, front⟩, size_characters text ▸ reached, back⟩
    · rintro ⟨middle, ⟨within, front⟩, -, back⟩
      exact ⟨within, middle, front, back⟩

end Regex

namespace PredicateDraft

/-- The anchors hold both alternatives, so that the longer one matches although the shorter one stops
in front of the end. -/
theorem alternatives_test_whole_value :
    ∃ predicate, ∃ regex : Regex.language.Expr,
      (fullMatch false "'ab'" "a|ab").check Regex.engine = .ok predicate ∧
      Regex.language.read? "a|ab" = some regex ∧
      ∀ context, predicate.evaluate context = .ok true ∧
        predicate.not.evaluate context = .ok false ∧ Regex.language.MatchesWhole regex "ab" := by
  obtain ⟨predicate, accepted, passes⟩ : ∃ predicate,
      (fullMatch false "'ab'" "a|ab").check Regex.engine = .ok predicate ∧
        ∀ context, predicate.evaluate context = .ok true := by
    apply Exists.intro
    exact ⟨rfl, fun _ => rfl⟩
  obtain ⟨regex, alone⟩ : ∃ regex, Regex.language.read? "a|ab" = some regex := ⟨_, rfl⟩
  obtain ⟨source, parsed, -, outcome⟩ :=
    full_match_tests_whole_value Regex.engine_follows accepted alone
  refine ⟨predicate, regex, accepted, alone, fun context => ?_⟩
  have literal : Expression.parse "'ab'" = .ok (.mk "'ab'" [.literal "ab"]) := rfl
  cases literal.symm.trans parsed
  obtain ⟨matched, evaluated, negated, whole⟩ := outcome context
  cases (passes context).symm.trans evaluated
  exact ⟨evaluated, negated, whole.mp rfl⟩

/-- A parenthesis that closes the group of the anchors leaves each of them with one alternative. The
text is no pattern by itself, but it is accepted, and a value that starts like one of its parts
passes. -/
theorem unbalanced_text_splits_anchors :
    ∃ predicate, (fullMatch false "'xz'" "x)|(?:y").check Regex.engine = .ok predicate ∧
      Regex.language.read? "x)|(?:y" = none ∧ Regex.engine "x)|(?:y" = none ∧
      ∀ context, predicate.evaluate context = .ok true := by
  apply Exists.intro
  refine ⟨?_, ?_, ?_, ?_⟩
  · rfl
  · rfl
  · rfl
  · intro context
    rfl

end PredicateDraft

end SyntaxGraph
