import SyntaxGraph.Proofs.Outcome
import SyntaxGraph.Proofs.Text.Nesting
import SyntaxGraph.Proofs.Text.Parts

/-!
Splitting a text and joining its parts again. With any separator that neither quotes nor nests, the
two are inverse: the parts of a text join to it, and each of them is its own only part; texts that
are their own only parts are the parts of what they join to. A text is refused, whatever the
separator, exactly for a quote or a parenthesis without its partner.
-/

set_option autoImplicit false

namespace SyntaxGraph.Text

variable {separator : Char}

theorem separates_iff {nesting : Nesting} {character : Char} :
    nesting.separates separator character = true ↔
      nesting = .top ∧ character = separator ∧ IsPlain separator := by
  simp only [Nesting.separates, IsPlain, Bool.and_eq_true, Bool.not_eq_true', decide_eq_true_eq,
    ne_eq]
  constructor
  · rintro ⟨⟨⟨⟨atTop, rfl⟩, unquoted⟩, notOpen⟩, notClose⟩
    exact ⟨atTop, rfl, unquoted, notOpen, notClose⟩
  · rintro ⟨atTop, rfl, unquoted, notOpen, notClose⟩
    exact ⟨⟨⟨⟨atTop, rfl⟩, unquoted⟩, notOpen⟩, notClose⟩

theorem split_at_separator (plain : IsPlain separator) (rest : List Char) :
    splitFrom separator .top (separator :: rest) = (splitTopLevel separator rest).map ([] :: ·) := by
  rw [splitFrom, if_pos (separates_iff.2 ⟨rfl, rfl, plain⟩)]
  rfl

theorem split_behind_character {nesting behind : Nesting} {character : Char} {rest : List Char}
    (inside : nesting.separates separator character = false)
    (advances : nesting.advance character = .ok behind) :
    splitFrom separator nesting (character :: rest) =
      (splitFrom separator behind rest).map (extendFirst character) := by
  rw [splitFrom, if_neg (by simp [inside]), advances]
  rfl

/-- The first character of a text that was split ends an empty part, or stands in front of the
first part of the rest. -/
theorem split_cases {nesting : Nesting} {character : Char} {rest : List Char}
    {parts : List (List Char)} (split : splitFrom separator nesting (character :: rest) = .ok parts) :
    (nesting = .top ∧ character = separator ∧
      ∃ others, splitTopLevel separator rest = .ok others ∧ parts = [] :: others) ∨
    (nesting.separates separator character = false ∧
      ∃ behind, nesting.advance character = .ok behind ∧
        ∃ others, splitFrom separator behind rest = .ok others ∧
          parts = extendFirst character others) := by
  rw [splitFrom] at split
  split at split
  · rename_i separates
    obtain ⟨rfl, rfl, _⟩ := separates_iff.1 separates
    obtain ⟨others, divided, yielded⟩ := exists_of_bind_ok split
    cases yielded
    exact Or.inl ⟨rfl, rfl, others, divided, rfl⟩
  · rename_i inside
    obtain ⟨behind, advances, split⟩ := exists_of_bind_ok split
    obtain ⟨others, divided, yielded⟩ := exists_of_bind_ok split
    cases yielded
    exact Or.inr ⟨by simpa using inside, behind, advances, others, divided, rfl⟩

theorem split_nil {nesting : Nesting} {parts : List (List Char)}
    (split : splitFrom separator nesting [] = .ok parts) : nesting = .top ∧ parts = [[]] := by
  rw [splitFrom] at split
  obtain ⟨_, finished, yielded⟩ := exists_of_bind_ok split
  cases yielded
  obtain ⟨quote, depth⟩ := nesting
  refine ⟨?_, rfl⟩
  cases quote with
  | some quote => cases finished
  | none =>
      cases depth with
      | zero => rfl
      | succ depth => cases finished

theorem parts_ne_nil {nesting : Nesting} {text : List Char} {parts : List (List Char)}
    (split : splitFrom separator nesting text = .ok parts) : parts ≠ [] := by
  cases text with
  | nil => simp [(split_nil split).2]
  | cons character rest =>
      rcases split_cases split with ⟨_, _, others, _, rfl⟩ | ⟨_, _, _, others, _, rfl⟩
      · exact List.cons_ne_nil _ _
      · cases others <;> exact List.cons_ne_nil _ _

theorem extend_first_append {character : Char} {parts : List (List Char)} (nonempty : parts ≠ [])
    (later : List (List Char)) :
    extendFirst character (parts ++ later) = extendFirst character parts ++ later := by
  cases parts with
  | nil => exact absurd rfl nonempty
  | cons first rest => rfl

theorem join_cons {first : List Char} {rest : List (List Char)} (more : rest ≠ []) :
    List.intercalate [separator] (first :: rest) =
      first ++ separator :: List.intercalate [separator] rest := by
  cases rest with
  | nil => exact absurd rfl more
  | cons second others =>
      rw [List.intercalate_cons_cons, List.append_assoc, List.singleton_append]

theorem join_extend_first {character : Char} {parts : List (List Char)} (nonempty : parts ≠ []) :
    List.intercalate [separator] (extendFirst character parts) =
      character :: List.intercalate [separator] parts := by
  match parts, nonempty with
  | [first], _ => simp [extendFirst]
  | first :: second :: rest, _ =>
      rw [extendFirst, join_cons (List.cons_ne_nil _ _), join_cons (List.cons_ne_nil _ _),
        List.cons_append]

theorem join_of_split {nesting : Nesting} {text : List Char} {parts : List (List Char)}
    (split : splitFrom separator nesting text = .ok parts) :
    List.intercalate [separator] parts = text := by
  induction text generalizing nesting parts with
  | nil =>
      rw [(split_nil split).2]
      exact List.intercalate_singleton
  | cons character rest induction =>
      rcases split_cases split with ⟨_, rfl, others, divided, rfl⟩ | ⟨_, _, _, others, divided, rfl⟩
      · rw [join_cons (parts_ne_nil divided), induction divided, List.nil_append]
      · rw [join_extend_first (parts_ne_nil divided), induction divided]

theorem first_of_split {nesting : Nesting} {text : List Char} {parts : List (List Char)}
    (split : splitFrom separator nesting text = .ok parts) :
    parts = [text] ∨
      ∃ first later rest, parts = first :: rest ∧ rest ≠ [] ∧ text = first ++ separator :: later := by
  have joined := join_of_split split
  obtain ⟨first, rest, rfl⟩ := List.exists_cons_of_ne_nil (parts_ne_nil split)
  by_cases last : rest = []
  · subst last
    rw [List.intercalate_singleton] at joined
    rw [joined]
    exact Or.inl rfl
  · rw [join_cons last] at joined
    exact Or.inr ⟨first, _, rest, rfl, last, joined.symm⟩

/-- Every part is its own only part; the first one stands where the text does. -/
theorem parts_of_split {nesting : Nesting} {text : List Char} {parts : List (List Char)}
    (split : splitFrom separator nesting text = .ok parts) :
    ∃ first rest, parts = first :: rest ∧ splitFrom separator nesting first = .ok [first] ∧
      ∀ part ∈ rest, splitTopLevel separator part = .ok [part] := by
  induction text generalizing nesting parts with
  | nil =>
      obtain ⟨rfl, rfl⟩ := split_nil split
      exact ⟨[], [], rfl, rfl, fun _ listed => absurd listed List.not_mem_nil⟩
  | cons character rest induction =>
      rcases split_cases split with ⟨rfl, rfl, others, divided, rfl⟩ |
        ⟨inside, behind, advances, others, divided, rfl⟩
      · obtain ⟨first, later, rfl, alone, each⟩ := induction divided
        exact ⟨[], _, rfl, rfl, List.forall_mem_cons.2 ⟨alone, each⟩⟩
      · obtain ⟨first, later, rfl, alone, each⟩ := induction divided
        refine ⟨character :: first, later, rfl, ?_, each⟩
        rw [split_behind_character inside advances, alone]
        rfl

/-- Behind a text that was split, a separator starts a text of its own. -/
theorem split_append (plain : IsPlain separator) {nesting : Nesting} {text : List Char}
    {parts : List (List Char)} (split : splitFrom separator nesting text = .ok parts)
    (later : List Char) :
    splitFrom separator nesting (text ++ separator :: later) =
      (splitTopLevel separator later).map (parts ++ ·) := by
  induction text generalizing nesting parts with
  | nil =>
      obtain ⟨rfl, rfl⟩ := split_nil split
      exact split_at_separator plain later
  | cons character rest induction =>
      rcases split_cases split with ⟨rfl, rfl, others, divided, rfl⟩ |
        ⟨inside, behind, advances, others, divided, rfl⟩
      · have whole : splitTopLevel character (rest ++ character :: later) = _ := induction divided
        rw [List.cons_append, split_at_separator plain, whole]
        cases splitTopLevel character later <;> rfl
      · rw [List.cons_append, split_behind_character inside advances, induction divided]
        cases splitTopLevel separator later with
        | error fault => rfl
        | ok found =>
            exact congrArg Except.ok (extend_first_append (parts_ne_nil divided) found)

theorem split_of_join (plain : IsPlain separator) {parts : List (List Char)} (nonempty : parts ≠ [])
    (alone : ∀ part ∈ parts, splitTopLevel separator part = .ok [part]) :
    splitTopLevel separator (List.intercalate [separator] parts) = .ok parts := by
  induction parts with
  | nil => exact absurd rfl nonempty
  | cons first rest induction =>
      obtain ⟨here, behind⟩ := List.forall_mem_cons.1 alone
      by_cases last : rest = []
      · subst last
        rw [List.intercalate_singleton]
        exact here
      · rw [join_cons last]
        refine (split_append plain here _).trans ?_
        rw [induction last behind]
        rfl

theorem part_length_le {nesting : Nesting} {text : List Char} {parts : List (List Char)}
    (split : splitFrom separator nesting text = .ok parts) :
    ∀ part ∈ parts, part.length ≤ text.length := by
  have joined := join_of_split split
  clear split
  induction parts generalizing text with
  | nil => exact fun _ listed => absurd listed List.not_mem_nil
  | cons first rest induction =>
      by_cases last : rest = []
      · subst last
        rw [List.intercalate_singleton] at joined
        subst joined
        exact List.forall_mem_singleton.2 (Nat.le_refl _)
      · rw [join_cons last] at joined
        subst joined
        refine List.forall_mem_cons.2 ⟨?_, fun part listed => ?_⟩
        · rw [List.length_append]
          exact Nat.le_add_right _ _
        · have behind := induction rfl part listed
          rw [List.length_append, List.length_cons]
          omega

/-- Texts that are their own only parts, one behind the other. -/
theorem split_alone_append {nesting : Nesting} {first second : List Char}
    (here : splitFrom separator nesting first = .ok [first])
    (behind : splitTopLevel separator second = .ok [second]) :
    splitFrom separator nesting (first ++ second) = .ok [first ++ second] := by
  induction first generalizing nesting with
  | nil =>
      obtain ⟨rfl, _⟩ := split_nil here
      exact behind
  | cons character rest induction =>
      rcases split_cases here with ⟨_, _, _, _, same⟩ | ⟨inside, next, advances, others, divided, same⟩
      · cases same
      · have alone : others = [rest] := by
          obtain ⟨first, later, rfl⟩ := List.exists_cons_of_ne_nil (parts_ne_nil divided)
          obtain ⟨sameFirst, rfl⟩ := List.cons.inj same
          rw [(List.cons.inj sameFirst).2]
        rw [alone] at divided
        rw [List.cons_append, split_behind_character inside advances, induction divided]
        rfl

theorem split_alone_join {between : Char} (plain : IsPlain between) (other : between ≠ separator)
    {parts : List (List Char)} (alone : ∀ part ∈ parts, splitTopLevel separator part = .ok [part]) :
    splitTopLevel separator (List.intercalate [between] parts) =
      .ok [List.intercalate [between] parts] := by
  induction parts with
  | nil => rfl
  | cons first rest induction =>
      obtain ⟨here, behind⟩ := List.forall_mem_cons.1 alone
      by_cases last : rest = []
      · rw [last, List.intercalate_singleton]
        exact here
      · have single : splitTopLevel separator [between] = .ok [[between]] :=
          split_plain (List.forall_mem_singleton.2 ⟨plain, other⟩)
        rw [join_cons last, ← List.singleton_append]
        exact split_alone_append here (split_alone_append single (induction behind))

/-- Nothing separates within a quote; what follows it stands in parentheses or not. -/
theorem split_within_quote {quote : Char} {inside rest : List Char} (absent : quote ∉ inside)
    {depth : Nat} (behind : splitFrom separator ⟨none, depth⟩ rest = .ok [rest]) :
    splitFrom separator ⟨some quote, depth⟩ (inside ++ quote :: rest) =
      .ok [inside ++ quote :: rest] := by
  have still : ∀ character, Nesting.separates ⟨some quote, depth⟩ separator character = false :=
    fun _ => rfl
  induction inside with
  | nil =>
      have leaves : Nesting.advance ⟨some quote, depth⟩ quote = .ok ⟨none, depth⟩ := by
        simp [Nesting.advance]
      rw [List.nil_append, split_behind_character (still quote) leaves, behind]
      rfl
  | cons character inside induction =>
      rw [List.mem_cons, not_or] at absent
      have stays : Nesting.advance ⟨some quote, depth⟩ character = .ok ⟨some quote, depth⟩ := by
        simp [Nesting.advance, Ne.symm absent.1]
      rw [List.cons_append, split_behind_character (still character) stays, induction absent.2]
      rfl

theorem split_quoted {quote : Char} (isQuote : Nesting.isQuote quote = true) {inside : List Char}
    (absent : quote ∉ inside) :
    splitTopLevel separator (quote :: (inside ++ [quote])) =
      .ok [quote :: (inside ++ [quote])] := by
  have still : Nesting.top.separates separator quote = false := by
    simp [Nesting.separates, isQuote]
  unfold splitTopLevel
  rw [split_behind_character still (Nesting.advance_quote isQuote 0), split_within_quote absent rfl]
  rfl

theorem split_quoted_argument {quote : Char} (isQuote : Nesting.isQuote quote = true)
    {inside : List Char} (absent : quote ∉ inside) :
    splitTopLevel separator ('(' :: quote :: (inside ++ [quote, ')'])) =
      .ok ['(' :: quote :: (inside ++ [quote, ')'])] := by
  have opens : Nesting.top.separates separator '(' = false := by simp [Nesting.separates]
  have still : Nesting.separates ⟨none, 1⟩ separator quote = false := rfl
  have closes : splitFrom separator ⟨none, 1⟩ [')'] = .ok [[')']] := rfl
  have enters : Nesting.advance .top '(' = .ok ⟨none, 1⟩ := rfl
  unfold splitTopLevel
  rw [split_behind_character opens enters,
    split_behind_character still (Nesting.advance_quote isQuote 1), split_within_quote absent closes]
  rfl

-- Texts that are refused

/-- Whether a text is split does not depend on the separator. -/
theorem split_outcome (separator : Char) (nesting : Nesting) (text : List Char) :
    (splitFrom separator nesting text).map (fun _ => ()) =
      nesting.scan text >>= Nesting.finish := by
  induction text generalizing nesting with
  | nil =>
      change (nesting.finish >>= fun _ => Except.ok [[]]).map _ = nesting.finish
      cases nesting.finish <;> rfl
  | cons character rest induction =>
      rw [Nesting.scan_cons]
      cases separates : nesting.separates separator character with
      | true =>
          obtain ⟨rfl, rfl, plain⟩ := separates_iff.1 separates
          rw [split_at_separator plain, advance_plain plain]
          change _ = Nesting.top.scan rest >>= Nesting.finish
          rw [← induction]
          change ((splitFrom character .top rest).map _).map _ = _
          cases splitFrom character .top rest <;> rfl
      | false =>
          cases advances : nesting.advance character with
          | error fault =>
              rw [splitFrom, if_neg (by simp [separates]), advances]
              rfl
          | ok behind =>
              rw [split_behind_character separates advances]
              change _ = behind.scan rest >>= Nesting.finish
              rw [← induction]
              cases splitFrom separator behind rest <;> rfl

theorem split_fault_iff {text visible : List Char} {unclosed : Option Char}
    (outside : Outside text visible unclosed) (fault : SplitFault) :
    splitTopLevel separator text = .error fault ↔
      match fault with
      | .unbalancedClose => ClosesUnopened visible
      | .unterminatedQuote => ¬ClosesUnopened visible ∧ unclosed.isSome
      | .unbalancedOpen => ¬ClosesUnopened visible ∧ unclosed = none ∧ OpensUnclosed visible := by
  have scanned := outside.scan_eq 0
  have refused : splitTopLevel separator text = .error fault ↔
      (splitFrom separator .top text).map (fun _ => ()) = .error fault := by
    unfold splitTopLevel
    cases splitFrom separator .top text <;> simp [Except.map]
  rw [refused, split_outcome, Nesting.top, scanned, closes_unopened_iff]
  cases counted : depthBehind 0 visible with
  | none => cases fault <;> simp [Bind.bind, Except.bind]
  | some depth =>
      rw [opens_unclosed_iff counted]
      change Nesting.finish ⟨unclosed, depth⟩ = .error fault ↔ _
      cases unclosed <;> cases depth <;> cases fault <;> simp [Nesting.finish]

theorem split_refuses_iff {text : List Char} :
    (∃ fault, splitTopLevel separator text = .error fault) ↔
      ∃ visible unclosed, Outside text visible unclosed ∧
        (ClosesUnopened visible ∨ unclosed.isSome ∨ OpensUnclosed visible) := by
  constructor
  · rintro ⟨fault, refused⟩
    obtain ⟨⟨visible, unclosed, outside⟩, _⟩ := outside_total text
    refine ⟨visible, unclosed, outside, ?_⟩
    have found := (split_fault_iff outside fault).1 refused
    cases fault with
    | unbalancedClose => exact Or.inl found
    | unterminatedQuote => exact Or.inr (Or.inl found.2)
    | unbalancedOpen => exact Or.inr (Or.inr found.2.2)
  · rintro ⟨visible, unclosed, outside, faulty⟩
    by_cases closes : ClosesUnopened visible
    · exact ⟨_, (split_fault_iff outside .unbalancedClose).2 closes⟩
    · cases unclosed with
      | some quote => exact ⟨_, (split_fault_iff outside .unterminatedQuote).2 ⟨closes, rfl⟩⟩
      | none =>
          have isOpen : OpensUnclosed visible :=
            (faulty.resolve_left closes).resolve_left Bool.false_ne_true
          exact ⟨_, (split_fault_iff outside .unbalancedOpen).2 ⟨closes, rfl, isOpen⟩⟩

/-- Splitting and joining are inverse, and a text is refused exactly for what has no partner outside
quotes: a closing parenthesis, a quote, or an opening parenthesis. -/
theorem split_inverts_join (plain : IsPlain separator) :
    (∀ text parts, splitTopLevel separator text = .ok parts →
      parts ≠ [] ∧ List.intercalate [separator] parts = text ∧
        ∀ part ∈ parts, splitTopLevel separator part = .ok [part]) ∧
    (∀ parts, parts ≠ [] → (∀ part ∈ parts, splitTopLevel separator part = .ok [part]) →
      splitTopLevel separator (List.intercalate [separator] parts) = .ok parts) ∧
    ∀ text, (∃ fault, splitTopLevel separator text = .error fault) ↔
      ∃ visible unclosed, Outside text visible unclosed ∧
        (ClosesUnopened visible ∨ unclosed.isSome ∨ OpensUnclosed visible) := by
  refine ⟨?_, fun parts => split_of_join plain, fun text => split_refuses_iff⟩
  intro text parts split
  obtain ⟨first, rest, rfl, alone, each⟩ := parts_of_split split
  exact ⟨List.cons_ne_nil _ _, join_of_split split, List.forall_mem_cons.2 ⟨alone, each⟩⟩

/-- Calls within calls, a parenthesis in a quote and an empty part, at commas. -/
theorem nested_calls_split_and_join :
    IsPlain ',' ∧
    splitTopLevel ',' "f(')', g(b, c)),, \"'\"".toList =
      .ok ["f(')', g(b, c))".toList, [], " \"'\"".toList] ∧
    List.intercalate [','] ["f(')', g(b, c))".toList, [], " \"'\"".toList] =
      "f(')', g(b, c)),, \"'\"".toList ∧
    ∃ fault, splitTopLevel ',' "f(a)), 'b".toList = .error fault := by
  have plain : IsPlain ',' := ⟨rfl, by decide, by decide⟩
  obtain ⟨splits, joins, refuses⟩ := split_inverts_join plain
  have split : splitTopLevel ',' "f(')', g(b, c)),, \"'\"".toList =
      .ok ["f(')', g(b, c))".toList, [], " \"'\"".toList] := rfl
  have outside : Outside "f(a)), 'b".toList "f(a)), ".toList (some '\'') :=
    .plain rfl (.plain rfl (.plain rfl (.plain rfl (.plain rfl (.plain rfl (.plain rfl
      (.unclosed rfl (by decide))))))))
  have closes : ClosesUnopened "f(a)), ".toList := closes_unopened_iff.2 rfl
  exact ⟨plain, split, (splits _ _ split).2.1, (refuses _).2 ⟨_, _, outside, Or.inl closes⟩⟩

end SyntaxGraph.Text
