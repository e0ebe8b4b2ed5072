import Mathlib.Data.List.Basic
import SyntaxGraph.Regex.Parser

/-!
Scanning a pattern that more text follows. A scanner of the longer text has the same in front of it
as a scanner of the pattern by itself, and then what follows. A comment at the end of the pattern may
swallow what follows; nothing is left of either text then.
-/

set_option autoImplicit false

namespace SyntaxGraph

namespace Regex

/-- What an anchored pattern has behind the pattern: the end of the group, and an anchor. -/
def closing : List Char := [')', '$']

theorem bound_of_succ_le {bound further : Nat} (le : bound + 1 ≤ further) :
    ∃ rest, further = rest + 1 ∧ bound ≤ rest :=
  ⟨further - 1, by omega, by omega⟩

theorem head_of_append_closing {input rest : List Char} {character : Char}
    (split : input ++ closing = character :: rest) (differs : character ≠ ')') :
    ∃ others, input = character :: others ∧ rest = others ++ closing := by
  cases input with
  | nil =>
    cases split
    exact absurd rfl differs
  | cons first others =>
    cases split
    exact ⟨others, rfl, rfl⟩

theorem skipIgnored_append (inComment : Bool) (input : List Char) :
    skipIgnored inComment (input ++ closing) = skipIgnored inComment input ++ closing ∨
      skipIgnored inComment input = [] ∧ skipIgnored inComment (input ++ closing) = [] := by
  induction input generalizing inComment with
  | nil =>
    cases inComment with
    | false => exact .inl (by decide)
    | true => exact .inr (by decide)
  | cons character rest ih =>
    simp only [List.cons_append, skipIgnored]
    split
    · exact ih _
    · split
      · exact ih _
      · split
        · exact ih _
        · exact .inl rfl

theorem skipIgnored_length_le (inComment : Bool) (input : List Char) :
    (skipIgnored inComment input).length ≤ input.length := by
  induction input generalizing inComment with
  | nil => exact Nat.le_refl _
  | cons character rest ih =>
    simp only [skipIgnored, List.length_cons]
    split
    · exact Nat.le_succ_of_le (ih _)
    · split
      · exact Nat.le_succ_of_le (ih _)
      · split
        · exact Nat.le_succ_of_le (ih _)
        · exact Nat.le_refl _

namespace Scanner

theorem skipSpace_length_le (scanner : Scanner) :
    scanner.skipSpace.rest.length ≤ scanner.rest.length := by
  rw [skipSpace]
  split
  · exact skipIgnored_length_le _ _
  · exact Nat.le_refl _

theorem advance_length_le (scanner : Scanner) :
    scanner.advance.rest.length ≤ scanner.rest.length - 1 := by
  calc scanner.advance.rest.length
    _ ≤ (scanner.drop 1).rest.length := (scanner.drop 1).skipSpace_length_le
    _ = scanner.rest.length - 1 := List.length_drop

theorem rest_ne_nil_of_peek {scanner : Scanner} {character : Char}
    (peeked : scanner.peek = some character) : scanner.rest ≠ [] := by
  intro none_left
  simp [peek, none_left] at peeked

theorem peek_of_rest {scanner : Scanner} {character : Char} {others : List Char}
    (found : scanner.rest = character :: others) : scanner.peek = some character := by
  rw [peek, found, List.head?_cons]

/-- The one scanner has the closing left behind what the other has left, or nothing is left of
either. -/
structure Extended (short long : Scanner) : Prop where
  freeSpacing : long.freeSpacing = short.freeSpacing
  names : long.names = short.names
  rest : long.rest = short.rest ++ closing ∨ short.rest = [] ∧ long.rest = []

namespace Extended

variable {short long : Scanner}

theorem length_le (extended : Extended short long) :
    short.rest.length ≤ long.rest.length := by
  rcases extended.rest with more | ⟨spent, -⟩
  · simp [more]
  · simp [spent]

theorem isEmpty_of_isEmpty (extended : Extended short long) (spent : long.rest.isEmpty) :
    short.rest.isEmpty := by
  rw [List.isEmpty_iff_length_eq_zero] at spent ⊢
  have := extended.length_le
  omega

theorem peek (extended : Extended short long) {character : Char}
    (peeked : short.peek = some character) : long.peek = some character := by
  rcases extended.rest with more | ⟨spent, -⟩
  · rw [Scanner.peek] at peeked ⊢
    simp [more, List.head?_append, peeked]
  · exact absurd spent (rest_ne_nil_of_peek peeked)

/-- The end of the pattern shows in nothing but the parenthesis behind it. -/
theorem peek_iff (extended : Extended short long) {character : Char} (differs : character ≠ ')') :
    long.peek = some character ↔ short.peek = some character := by
  refine ⟨fun peeked => ?_, extended.peek⟩
  rcases extended.rest with more | ⟨-, spent⟩
  · rw [Scanner.peek, more, List.head?_eq_some_iff] at peeked
    obtain ⟨rest, split⟩ := peeked
    obtain ⟨others, found, -⟩ := head_of_append_closing split differs
    rw [Scanner.peek, found, List.head?_cons]
  · exact absurd spent (rest_ne_nil_of_peek peeked)

theorem rest_of_cons (extended : Extended short long) {character : Char} {others : List Char}
    (found : short.rest = character :: others) : long.rest = character :: (others ++ closing) := by
  rcases extended.rest with more | ⟨spent, -⟩
  · rw [more, found, List.cons_append]
  · simp [spent] at found

theorem drop (extended : Extended short long) {count : Nat} (enough : count ≤ short.rest.length) :
    Extended (short.drop count) (long.drop count) := by
  refine ⟨extended.freeSpacing, extended.names, ?_⟩
  rcases extended.rest with more | ⟨spent, long_spent⟩
  · left
    simp only [Scanner.drop, more]
    exact List.drop_append_of_le_length enough
  · right
    simp [Scanner.drop, spent, long_spent]

theorem skipSpace (extended : Extended short long) :
    Extended short.skipSpace long.skipSpace := by
  rw [Scanner.skipSpace, Scanner.skipSpace, extended.freeSpacing]
  split
  · refine ⟨rfl, extended.names, ?_⟩
    rcases extended.rest with more | ⟨spent, long_spent⟩
    · rw [more]
      exact skipIgnored_append false short.rest
    · exact .inr ⟨congrArg (skipIgnored false) spent, congrArg (skipIgnored false) long_spent⟩
  · exact extended

theorem drop_one (extended : Extended short long) {character : Char}
    (peeked : short.peek = some character) : Extended (short.drop 1) (long.drop 1) :=
  extended.drop (List.length_pos_iff.mpr (rest_ne_nil_of_peek peeked))

theorem advance (extended : Extended short long) {character : Char}
    (peeked : short.peek = some character) : Extended short.advance long.advance :=
  (extended.drop_one peeked).skipSpace

theorem withSpacing (extended : Extended short long) (freeSpacing : Bool) :
    Extended { short with freeSpacing := freeSpacing } { long with freeSpacing := freeSpacing } :=
  ⟨rfl, extended.names, extended.rest⟩

end Extended

end Scanner

open Scanner

def Persists {Value : Type} (short long : Option (Value × Scanner)) : Prop :=
  ∀ value next, short = some (value, next) →
    ∃ further, long = some (value, further) ∧ Extended next further

namespace Persists

variable {Value Result Found : Type}

theorem none (long : Option (Value × Scanner)) : Persists none long := nofun

theorem some (value : Value) {next further : Scanner} (extended : Extended next further) :
    Persists (.some (value, next)) (.some (value, further)) := by
  rintro _ _ ⟨⟩
  exact ⟨further, rfl, extended⟩

theorem bind {short long : Option (Value × Scanner)}
    {first second : Value × Scanner → Option (Result × Scanner)} (persists : Persists short long)
    (continues : ∀ value next further, short = .some (value, next) → Extended next further →
      Persists (first (value, next)) (second (value, further))) :
    Persists (short >>= first) (long >>= second) := by
  rcases short with _ | ⟨value, next⟩
  · exact none _
  · obtain ⟨further, rfl, extended⟩ := persists value next rfl
    exact continues value next further rfl extended

theorem bind_found {short long : Option Found} {first second : Found → Option (Result × Scanner)}
    (persists : ∀ found, short = .some found → long = .some found)
    (continues : ∀ found, short = .some found → Persists (first found) (second found)) :
    Persists (short >>= first) (long >>= second) := by
  cases short with
  | none => exact none _
  | some found =>
    rw [persists found rfl]
    exact continues found rfl

theorem map {short long : Option (Value × Scanner)} (persists : Persists short long)
    (change : Value → Result) :
    Persists (short.map fun (value, next) => (change value, next))
      (long.map fun (value, next) => (change value, next)) := by
  rcases short with _ | ⟨value, next⟩
  · exact none _
  · obtain ⟨further, rfl, extended⟩ := persists value next rfl
    exact some (change value) extended

theorem ite {condition : Prop} [Decidable condition] {short long : Option (Value × Scanner)}
    {otherShort otherLong : Option (Value × Scanner)}
    (holds : condition → Persists short long) (fails : ¬condition → Persists otherShort otherLong) :
    Persists (if condition then short else otherShort)
      (if condition then long else otherLong) := by
  split
  · exact holds ‹_›
  · exact fails ‹_›

end Persists

def Together (short long : Option Scanner) : Prop :=
  short = none ∧ long = none ∨
    ∃ next further, short = some next ∧ long = some further ∧ Extended next further

theorem Together.orElse {short long otherShort otherLong : Option Scanner}
    (first : Together short long) (second : Together otherShort otherLong) :
    Together (short <|> otherShort) (long <|> otherLong) := by
  rcases first with ⟨rfl, rfl⟩ | ⟨next, further, rfl, rfl, extended⟩
  · simpa using second
  · exact .inr ⟨next, further, rfl, rfl, extended⟩

end Regex

end SyntaxGraph
