import SyntaxGraph.Proofs.Regex.Scanner

/-!
The tokens of a pattern that more text follows: numbers, escapes and classes. What is read of the
pattern by itself is read of the longer text as well.
-/

set_option autoImplicit false

namespace SyntaxGraph

namespace Regex

open Scanner

variable {short long : Scanner}

-- Numbers

theorem persists_readHexDigits (count value : Nat) (extended : Extended short long) :
    Persists (readHexDigits count value short) (readHexDigits count value long) := by
  induction count generalizing value short long with
  | zero => exact .some value extended
  | succ count ih =>
    simp only [readHexDigits]
    refine .bind_found (fun _ => extended.peek) fun character peeked => ?_
    refine .bind_found (fun _ => id) fun digit _ => ih _ ?_
    split
    · exact extended.drop_one peeked
    · exact extended.advance peeked

theorem persists_readHexBrace {bound further : Nat} (le : bound ≤ further) (digits : List Nat)
    (extended : Extended short long) :
    Persists (readHexBrace bound digits short) (readHexBrace further digits long) := by
  induction bound generalizing further digits short long with
  | zero => exact .none _
  | succ bound ih =>
    obtain ⟨further, rfl, lower⟩ := bound_of_succ_le le
    simp only [readHexBrace]
    refine .bind_found (fun _ => extended.peek) fun character peeked => ?_
    have moved := extended.advance peeked
    refine .ite (fun _ => .some digits moved) fun _ => ?_
    exact .bind_found (fun _ => id) fun digit _ => ih lower _ moved

/-- The bound is what is left of the text, and so is large enough behind every prefix of it. -/
theorem persists_readHex (count : Nat) {character : Char} (peeked : short.peek = some character)
    (extended : Extended short long) : Persists (readHex count short) (readHex count long) := by
  have start := extended.advance peeked
  simp only [readHex, start.peek_iff (by decide : '\x7b' ≠ ')')]
  refine .ite (fun braced => ?_) fun _ => ?_
  · refine .bind (persists_readHexBrace start.length_le [] (start.advance braced))
      fun digits next further _ moved => ?_
    refine .ite (fun _ => .none _) fun _ => ?_
    exact .bind_found (fun _ => id) fun value _ => .some _ moved
  · refine .bind (persists_readHexDigits count 0 start) fun value next further _ moved => ?_
    exact .bind_found (fun _ => id) fun value _ => .some _ moved.skipSpace

theorem extended_skipWhite (extended : Extended short long) :
    Extended (skipWhite short) (skipWhite long) := by
  refine ⟨extended.freeSpacing, extended.names, ?_⟩
  rcases extended.rest with more | ⟨spent, long_spent⟩
  · left
    simp only [skipWhite, more]
    induction short.rest with
    | nil => decide
    | cons character rest ih =>
      simp only [List.cons_append, List.dropWhile_cons]
      split
      · exact ih
      · rfl
  · exact .inr ⟨congrArg (List.dropWhile _) spent, congrArg (List.dropWhile _) long_spent⟩

theorem readDigits_of_no_digit (bound : Nat) (reversed : List Char) {scanner : Scanner}
    (ends : ∀ character, scanner.peek = some character → character.isDigit = false) :
    readDigits bound reversed scanner = (reversed.reverse, scanner) := by
  cases bound with
  | zero => rfl
  | succ bound =>
    cases peeked : scanner.peek with
    | none => simp [readDigits, peeked]
    | some character => simp [readDigits, peeked, ends character peeked]

theorem no_digit_extended (extended : Extended short long)
    (ends : ∀ character, short.peek = some character → character.isDigit = false) :
    ∀ character, long.peek = some character → character.isDigit = false := by
  intro character peeked
  by_cases differs : character = ')'
  · rw [differs]
    rfl
  · exact ends character ((extended.peek_iff differs).mp peeked)

/-- The bound is never what ends a row of digits. -/
theorem readDigits_extended {bound further : Nat} (le : bound ≤ further)
    (enough : short.rest.length ≤ bound) (reversed : List Char)
    (extended : Extended short long) :
    (readDigits further reversed long).1 = (readDigits bound reversed short).1 ∧
      Extended (readDigits bound reversed short).2 (readDigits further reversed long).2 := by
  induction bound generalizing further reversed short long with
  | zero =>
    have spent : short.rest = [] := List.length_eq_zero_iff.mp (Nat.le_zero.mp enough)
    have ends := no_digit_extended extended (by simp [Scanner.peek, spent])
    rw [readDigits_of_no_digit further reversed ends]
    exact ⟨rfl, extended⟩
  | succ bound ih =>
    obtain ⟨further, rfl, lower⟩ := bound_of_succ_le le
    by_cases digit : ∃ character, short.peek = some character ∧ character.isDigit
    · obtain ⟨character, peeked, is_digit⟩ := digit
      have moved := short.advance_length_le
      simp only [readDigits, peeked, extended.peek peeked, is_digit, if_true]
      exact ih lower (by omega) _ (extended.advance peeked)
    · have ends : ∀ character, short.peek = some character → character.isDigit = false := by
        simpa using digit
      rw [readDigits_of_no_digit _ reversed ends,
        readDigits_of_no_digit _ reversed (no_digit_extended extended ends)]
      exact ⟨rfl, extended⟩

theorem persists_readCount (extended : Extended short long) :
    Persists (readCount short) (readCount long) := by
  have start := extended_skipWhite extended
  obtain ⟨same, after⟩ := readDigits_extended start.length_le (Nat.le_refl _) [] start
  simp only [readCount]
  rw [same]
  refine .ite (fun _ => .none _) fun _ => ?_
  exact .ite (fun _ => .some _ (extended_skipWhite after)) fun _ => .none _

-- Escapes

theorem persists_readBraced {bound further : Nat} (le : bound ≤ further) (reversed : List Char)
    (extended : Extended short long) :
    Persists (readBraced bound reversed short) (readBraced further reversed long) := by
  induction bound generalizing further reversed short long with
  | zero => exact .none _
  | succ bound ih =>
    obtain ⟨further, rfl, lower⟩ := bound_of_succ_le le
    simp only [readBraced]
    refine .bind_found (fun _ => extended.peek) fun character peeked => ?_
    refine .ite (fun _ => .some _ (extended.drop_one peeked)) fun _ => ?_
    exact ih lower _ (extended.advance peeked)

theorem persists_readProperty (negated : Bool) {character : Char}
    (peeked : short.peek = some character) (extended : Extended short long) :
    Persists (readProperty negated short) (readProperty negated long) := by
  have start := extended.advance peeked
  simp only [readProperty]
  refine .bind_found (fun _ => start.peek) fun mark marked => ?_
  refine .ite (fun _ => ?_) fun _ => .ite (fun _ => .none _) fun _ => ?_
  · refine .bind (persists_readBraced start.length_le [] (start.advance marked))
      fun name next further _ moved => ?_
    exact .bind_found (fun _ => id) fun property _ => .some _ moved
  · exact .bind_found (fun _ => id) fun property _ => .some _ (start.advance marked)

theorem persists_readWordBoundary (extended : Extended short long) :
    Persists (readWordBoundary short) (readWordBoundary long) := by
  simp only [readWordBoundary, ne_eq, extended.peek_iff (by decide : '\x7b' ≠ ')')]
  refine .ite (fun _ => .some _ extended) fun braced => ?_
  have start := extended.advance (not_not.mp braced)
  cases marked : short.advance.peek with
  | none => exact .none _
  | some mark =>
    simp only [start.peek marked]
    refine .ite (fun _ => .some _ extended) fun _ => ?_
    refine .bind (persists_readBraced start.length_le [] start) fun name next further _ moved => ?_
    dsimp only
    split
    · exact .some _ moved
    · exact .some _ moved
    · exact .some _ moved
    · exact .some _ moved
    · exact .none _

theorem persists_readEscape {character : Char} (peeked : short.peek = some character)
    (extended : Extended short long) : Persists (readEscape short) (readEscape long) := by
  have start := extended.drop_one peeked
  simp only [readEscape]
  refine .bind_found (fun _ => start.peek) fun mark marked => ?_
  have behind := start.drop_one marked
  have hex (count : Nat) := (persists_readHex count marked start).map Atom.literal
  split
  case h_20 => exact persists_readWordBoundary behind
  case h_24 => exact .ite (fun _ => .some _ behind) fun _ => .none _
  all_goals
    first
    | exact hex _
    | exact persists_readProperty _ marked start
    | exact .some _ behind

theorem persists_readAtom (extended : Extended short long) :
    Persists (readAtom short) (readAtom long) := by
  simp only [readAtom]
  refine .bind_found (fun _ => extended.peek) fun character peeked => ?_
  have behind := extended.drop_one peeked
  split
  case h_1 => exact persists_readEscape peeked extended
  all_goals exact .some _ behind

-- Classes in brackets

/-- A text without a closing parenthesis does not reach beyond the end of the pattern. -/
theorem isPrefixOf_extended (extended : Extended short long) {expected : List Char}
    (plain : ')' ∉ expected) : expected.isPrefixOf long.rest = expected.isPrefixOf short.rest := by
  rcases extended.rest with more | ⟨spent, long_spent⟩
  · rw [more]
    generalize short.rest = rest
    induction expected generalizing rest with
    | nil => simp
    | cons character expected ih =>
      rw [List.mem_cons, not_or] at plain
      obtain ⟨differs, plain⟩ := plain
      cases rest with
      | nil => simp [closing, List.isPrefixOf, Ne.symm differs]
      | cons first rest => simp [List.isPrefixOf, ih plain]
  · rw [spent, long_spent]

theorem expect?_extended (extended : Extended short long) {text : String}
    (plain : ')' ∉ text.toList) : Together (short.expect? text) (long.expect? text) := by
  simp only [expect?, isPrefixOf_extended extended plain]
  split
  · next expected =>
    refine .inr ⟨_, _, rfl, rfl, extended.drop ?_⟩
    exact (List.isPrefixOf_iff_prefix.mp expected).length_le
  · exact .inl ⟨rfl, rfl⟩

theorem className_extended (extended : Extended short long) :
    (short.drop (short.rest.takeWhile (· ≠ ':')).length).expect? ":]" = none ∧
        (long.drop (long.rest.takeWhile (· ≠ ':')).length).expect? ":]" = none ∨
      long.rest.takeWhile (· ≠ ':') = short.rest.takeWhile (· ≠ ':') ∧
        Extended (short.drop (short.rest.takeWhile (· ≠ ':')).length)
          (long.drop (short.rest.takeWhile (· ≠ ':')).length) := by
  rcases extended.rest with more | ⟨spent, long_spent⟩
  · by_cases whole : (short.rest.takeWhile (· ≠ ':')).length = short.rest.length
    · left
      have long_whole : long.rest.takeWhile (· ≠ ':') = short.rest ++ closing := by
        rw [more, List.takeWhile_append, if_pos whole]
        rfl
      rw [whole, long_whole]
      simp [expect?, Scanner.drop, more]
    · right
      rw [more, List.takeWhile_append, if_neg whole]
      exact ⟨rfl, extended.drop (List.takeWhile_prefix _).length_le⟩
  · right
    rw [spent, long_spent]
    exact ⟨rfl, extended.drop (Nat.zero_le _)⟩

theorem persists_readAsciiClass (extended : Extended short long) :
    Persists (readAsciiClass short) (readAsciiClass long) ∧
      (readAsciiClass short = none → readAsciiClass long = none) := by
  rcases expect?_extended extended (by decide : ')' ∉ "[:".toList) with
    ⟨short_fails, long_fails⟩ | ⟨start, further, short_opens, long_opens, opened⟩
  · simp only [readAsciiClass, short_fails, long_fails]
    exact ⟨.none _, fun _ => rfl⟩
  simp only [readAsciiClass, short_opens, long_opens, Option.bind_eq_bind, Option.bind_some,
    opened.peek_iff (by decide : '^' ≠ ')')]
  have named : Extended (if start.peek = some '^' then start.drop 1 else start)
      (if start.peek = some '^' then further.drop 1 else further) := by
    split
    · exact opened.drop_one ‹_›
    · exact opened
  generalize (if start.peek = some '^' then start.drop 1 else start) = short_name at named ⊢
  generalize (if start.peek = some '^' then further.drop 1 else further) = long_name at named ⊢
  rcases className_extended named with ⟨short_fails, long_fails⟩ | ⟨same, behind⟩
  · rw [short_fails, long_fails]
    exact ⟨.none _, fun _ => rfl⟩
  rw [same]
  rcases expect?_extended behind (by decide : ')' ∉ ":]".toList) with
    ⟨short_fails, long_fails⟩ | ⟨next, beyond, short_closes, long_closes, closed⟩
  · rw [short_fails, long_fails]
    exact ⟨.none _, fun _ => rfl⟩
  rw [short_closes, long_closes]
  simp only [Option.bind_some]
  cases asciiClasses.find? _ with
  | none => exact ⟨.none _, fun _ => rfl⟩
  | some entry => exact ⟨.some _ closed, nofun⟩

theorem persists_readClassAtom (extended : Extended short long) :
    Persists (readClassAtom short) (readClassAtom long) := by
  simp only [readClassAtom]
  refine .bind_found (fun _ => extended.peek) fun character peeked => ?_
  split
  · exact persists_readEscape peeked extended
  · exact .some _ (extended.drop_one peeked)

theorem persists_readClassRange (extended : Extended short long) :
    Persists (readClassRange short) (readClassRange long) := by
  simp only [readClassRange]
  refine .bind (persists_readClassAtom extended) fun first next further _ moved => ?_
  have start := moved.skipSpace
  dsimp only
  have same :
      (decide (further.skipSpace.peek = some '-') &&
          decide (further.skipSpace.peekSpace ≠ some ']') &&
          decide (further.skipSpace.peekSpace ≠ some '-')) =
        (decide (next.skipSpace.peek = some '-') && decide (next.skipSpace.peekSpace ≠ some ']') &&
          decide (next.skipSpace.peekSpace ≠ some '-')) := by
    rw [Bool.eq_iff_iff]
    simp only [Bool.and_eq_true, decide_eq_true_eq, and_assoc,
      start.peek_iff (by decide : '-' ≠ ')')]
    refine and_congr_right fun hyphen => ?_
    have behind := start.advance hyphen
    simp only [peekSpace, ne_eq, behind.peek_iff (by decide : ']' ≠ ')'),
      behind.peek_iff (by decide : '-' ≠ ')')]
  rw [same]
  refine .ite (fun _ => ?_) fun ranges => ?_
  · by_cases spent : next.skipSpace.rest.isEmpty
    · rw [if_pos spent]
      exact .none _
    · rw [if_neg spent, if_neg (mt start.isEmpty_of_isEmpty spent)]
      exact .bind_found (fun _ => id) fun tree _ => .some _ start
  · have hyphen : next.skipSpace.peek = some '-' := by
      simp only [Bool.not_eq_true', Bool.not_eq_false, Bool.and_eq_true, decide_eq_true_eq] at ranges
      exact ranges.1.1
    refine .bind (persists_readClassAtom (start.advance hyphen)) fun last next further _ moved => ?_
    dsimp only
    split
    · exact .ite (fun _ => .some _ moved) fun _ => .none _
    · exact .none _

theorem readLeadingHyphens_extended {bound further : Nat} (le : bound ≤ further)
    (enough : short.rest.length ≤ bound) (tree : ClassTree) (extended : Extended short long) :
    (readLeadingHyphens further tree long).1 = (readLeadingHyphens bound tree short).1 ∧
      Extended (readLeadingHyphens bound tree short).2 (readLeadingHyphens further tree long).2 := by
  induction bound generalizing further tree short long with
  | zero =>
    have spent : short.rest = [] := List.length_eq_zero_iff.mp (Nat.le_zero.mp enough)
    have ends : long.peek ≠ some '-' := by
      rw [Ne, extended.peek_iff (by decide)]
      simp [Scanner.peek, spent]
    cases further with
    | zero => exact ⟨rfl, extended⟩
    | succ further =>
      rw [show readLeadingHyphens (further + 1) tree long = (tree, long) from if_neg ends]
      exact ⟨rfl, extended⟩
  | succ bound ih =>
    obtain ⟨further, rfl, lower⟩ := bound_of_succ_le le
    simp only [readLeadingHyphens, extended.peek_iff (by decide : '-' ≠ ')')]
    split
    · next peeked =>
      have moved := short.advance_length_le
      exact ih lower (by omega) _ (extended.advance peeked)
    · exact ⟨rfl, extended⟩

def ItemsPersist (bound further : Nat) : Prop :=
  ∀ (pending : Option (ClassOperator × ClassTree)) (members : ClassTree) {short long : Scanner},
    Extended short long →
      Persists (readClassItems bound pending members short)
        (readClassItems further pending members long)

def ClassesPersist (bound further : Nat) : Prop :=
  ∀ {short long : Scanner} {character : Char}, short.peek = some character →
    Extended short long → Persists (readClass bound short) (readClass further long)

theorem ItemsPersist.classes {bound further : Nat} (items : ItemsPersist bound further) :
    ClassesPersist (bound + 1) (further + 1) := by
  intro short long character peeked extended
  have opened := extended.advance peeked
  simp only [readClass, opened.peek_iff (by decide : '^' ≠ ')')]
  have start : Extended
      (if short.advance.peek = some '^' then short.advance.advance else short.advance)
      (if short.advance.peek = some '^' then long.advance.advance else long.advance) := by
    split
    · exact opened.advance ‹_›
    · exact opened
  generalize (if short.advance.peek = some '^' then short.advance.advance else short.advance) =
    short_start at start ⊢
  generalize (if short.advance.peek = some '^' then long.advance.advance else long.advance) =
    long_start at start ⊢
  obtain ⟨same, behind⟩ :=
    readLeadingHyphens_extended start.length_le (Nat.le_refl _) .empty start
  rw [same]
  simp only [behind.peek_iff (by decide : ']' ≠ ')')]
  refine .bind ?_ fun tree next further _ moved => .some _ moved
  split
  · next bracketed =>
    rw [Bool.and_eq_true, decide_eq_true_eq, decide_eq_true_eq] at bracketed
    exact items _ _ (behind.advance bracketed.2)
  · exact items _ _ behind

theorem ItemsPersist.step {bound further : Nat} (items : ItemsPersist bound further)
    (classes : ClassesPersist bound further) : ItemsPersist (bound + 1) (further + 1) := by
  intro pending members short long extended
  have start := extended.skipSpace
  simp only [readClassItems]
  cases found : short.skipSpace.rest with
  | nil => exact .none _
  | cons character others =>
    have peeked := peek_of_rest found
    have long_found := start.rest_of_cons found
    rw [long_found]
    split
    case h_1 => exact .none _
    case h_2 tail same =>
      cases same
      obtain ⟨named, unnamed⟩ := persists_readAsciiClass start
      cases short_named : readAsciiClass short.skipSpace with
      | some read =>
        obtain ⟨beyond, long_named, moved⟩ := named read.1 read.2 short_named
        rw [long_named]
        exact items _ _ moved
      | none =>
        rw [unnamed short_named]
        exact .bind (classes peeked start) fun inner next beyond _ moved => items _ _ moved
    case h_3 tail same =>
      cases same
      exact .some _ (start.drop_one peeked)
    case h_4 tail same =>
      cases same
      exact items _ _ (start.drop (by simp [found]))
    case h_5 tail same =>
      cases same
      exact items _ _ (start.drop (by simp [found]))
    case h_6 tail same =>
      cases same
      exact items _ _ (start.drop (by simp [found]))
    case h_7 no_class no_end no_intersection no_difference no_symmetric_difference =>
      -- What follows the pattern does not complete an operator.
      split
      case h_1 same => cases same
      case h_2 same => cases same; exact (no_class _ rfl).elim
      case h_3 same => cases same; exact (no_end _ rfl).elim
      case h_4 tail same =>
        obtain ⟨rfl, rest⟩ := List.cons.inj same
        obtain ⟨others, rfl, -⟩ := head_of_append_closing rest (by decide)
        exact (no_intersection _ rfl).elim
      case h_5 tail same =>
        obtain ⟨rfl, rest⟩ := List.cons.inj same
        obtain ⟨others, rfl, -⟩ := head_of_append_closing rest (by decide)
        exact (no_difference _ rfl).elim
      case h_6 tail same =>
        obtain ⟨rfl, rest⟩ := List.cons.inj same
        obtain ⟨others, rfl, -⟩ := head_of_append_closing rest (by decide)
        exact (no_symmetric_difference _ rfl).elim
      case h_7 =>
        exact .bind (persists_readClassRange start) fun item next beyond _ moved =>
          items _ _ moved

/-- Brackets nest, so that a class and its members are dealt with together. The bounds may differ,
as long as the longer text has the larger one. -/
theorem persists_class {bound further : Nat} (le : bound ≤ further) :
    ClassesPersist bound further ∧ ItemsPersist bound further := by
  induction bound generalizing further with
  | zero => exact ⟨fun _ _ => .none _, fun _ _ _ _ _ => .none _⟩
  | succ bound ih =>
    obtain ⟨further, rfl, lower⟩ := bound_of_succ_le le
    obtain ⟨classes, items⟩ := ih lower
    exact ⟨items.classes, items.step classes⟩

end Regex

end SyntaxGraph
