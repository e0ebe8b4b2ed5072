import SyntaxGraph.Proofs.Expression.Absence
import SyntaxGraph.Proofs.Expression.Reading
import SyntaxGraph.Proofs.Text.Splitting

/-!
Expressions put together. A plus sign between two texts that read as expressions makes one
expression of them, with the terms of the first and then those of the second, and it resolves to
what the two resolve to, one behind the other. A text in quotes is one literal, whatever it contains
apart from the quote.
-/

set_option autoImplicit false

namespace SyntaxGraph

theorem mapM_congr {Cause Item Result : Type} {first second : Item → Except Cause Result}
    {items : List Item} (same : ∀ item ∈ items, first item = second item) :
    items.mapM first = items.mapM second := by
  induction items with
  | nil => rfl
  | cons item rest induction =>
      obtain ⟨here, behind⟩ := List.forall_mem_cons.1 same
      rw [List.mapM_cons, List.mapM_cons, here, induction behind]

namespace Expression

-- How far the reader looks

theorem drop_mark_length_le (text : List Char) : (dropMark text).1.length ≤ text.length := by
  obtain ⟨mark, split, _⟩ := drop_mark_append text
  have sizes := congrArg List.length split
  rw [List.length_append] at sizes
  omega

variable {first second : List Char → Except ExpressionFault Expression}

theorem read_call_congr {segment : List Char}
    (same : ∀ text, text.length < segment.length → first text = second text) :
    readCall first segment = readCall second segment := by
  unfold readCall
  dsimp only
  split
  · rfl
  · rename_i opened inside called
    split
    · rfl
    split
    · rfl
    cases parted : split ',' inside.dropLast with
    | error fault => rfl
    | ok parts =>
        have shorter := Text.part_length_le (split_eq_ok_iff.1 parted)
        have arguments : parts.mapM first = parts.mapM second := by
          apply mapM_congr
          intro part listed
          apply same
          have within := shorter part listed
          have tail := (List.dropWhile_sublist (l := Text.trimChars segment) (· ≠ '(')).length_le
          have trimmed := Text.trim_chars_length_le segment
          rw [called, List.length_cons] at tail
          rw [List.length_dropLast] at within
          omega
        change (parts.mapM first >>= _) = (parts.mapM second >>= _)
        rw [arguments]

theorem read_reference_congr {reference : List Char}
    (same : ∀ text, text.length < reference.length → first text = second text) :
    readReference first reference = readReference second reference := by
  unfold readReference
  dsimp only
  cases parted : split '.' (dropMark (Text.trimChars reference)).1 with
  | error fault => rfl
  | ok segments =>
      have shorter := Text.part_length_le (split_eq_ok_iff.1 parted)
      have calls : (segments.drop 1).mapM (readCall first) =
          (segments.drop 1).mapM (readCall second) := by
        apply mapM_congr
        intro segment listed
        apply read_call_congr
        intro text within
        apply same
        have part := shorter segment (List.mem_of_mem_drop listed)
        have marked := drop_mark_length_le (Text.trimChars reference)
        have trimmed := Text.trim_chars_length_le reference
        omega
      simp only [bind, Except.bind, calls]

theorem read_term_congr {part : List Char}
    (same : ∀ text, text.length < part.length → first text = second text) :
    readTerm first part = readTerm second part := by
  unfold readTerm
  dsimp only
  split
  · rfl
  · split
    · rename_i reference signed
      rw [read_reference_congr]
      intro text within
      apply same
      have trimmed := Text.trim_chars_length_le part
      rw [signed, List.length_cons] at trimmed
      omega
    · rfl

/-- Any bound above the length of a text gives the same reading of it. -/
theorem read_bounds_agree {bound other : Nat} {text : List Char} (enough : text.length < bound)
    (alsoEnough : text.length < other) : read bound text = read other text := by
  induction bound generalizing other text with
  | zero => exact absurd enough (Nat.not_lt_zero _)
  | succ bound induction =>
      obtain ⟨other, rfl⟩ : ∃ smaller, other = smaller + 1 :=
        ⟨other - 1, by omega⟩
      rw [read, read]
      cases parted : split '+' text with
      | error fault => simp only [bind, Except.bind]
      | ok parts =>
          have shorter := Text.part_length_le (split_eq_ok_iff.1 parted)
          have terms : parts.mapM (readTerm (read bound)) = parts.mapM (readTerm (read other)) := by
            apply mapM_congr
            intro part listed
            apply read_term_congr
            intro inner within
            have part := shorter part listed
            exact induction (by omega) (by omega)
          simp only [bind, Except.bind, terms]

theorem read_of_parse {source : String} {expression : Expression}
    (yielded : parse source = .ok expression) {bound : Nat} (enough : source.length < bound) :
    read bound source.toList = .ok expression := by
  have sameBound : read bound source.toList = read (source.length + 1) source.toList :=
    read_bounds_agree (by rwa [String.length_toList]) (by rw [String.length_toList]; omega)
  unfold parse at yielded
  rw [sameBound]
  cases found : read (source.length + 1) source.toList with
  | error fault =>
      rw [found] at yielded
      cases yielded
  | ok result =>
      rw [found] at yielded
      cases yielded
      rfl

theorem parse_eq_ok_iff {source : String} {expression : Expression} {bound : Nat}
    (enough : source.length ≤ bound) :
    parse source = .ok expression ↔ expression.source = source ∧
      ∃ parts, Text.splitTopLevel '+' source.toList = .ok parts ∧
        parts.mapM (readTerm (read bound)) = .ok expression.terms := by
  have sameBound : read (source.length + 1) source.toList = read (bound + 1) source.toList :=
    read_bounds_agree (by rw [String.length_toList]; omega) (by rw [String.length_toList]; omega)
  unfold parse
  rw [sameBound, read, String.ofList_toList]
  constructor
  · intro yielded
    split at yielded
    · rename_i found read
      cases yielded
      obtain ⟨parts, parted, read⟩ := exists_of_bind_ok read
      obtain ⟨terms, each, read⟩ := exists_of_bind_ok read
      cases read
      exact ⟨rfl, parts, split_eq_ok_iff.1 parted, each⟩
    · cases yielded
  · rintro ⟨named, parts, parted, each⟩
    obtain ⟨_, terms⟩ := expression
    change _ = source at named
    change _ = Except.ok terms at each
    subst named
    rw [split_eq_ok_iff.2 parted]
    simp only [bind, Except.bind, each, pure, Except.pure]
    rfl

theorem parse_append {left right : String} {head tail : Expression}
    (readLeft : parse left = .ok head) (readRight : parse right = .ok tail) :
    parse (left ++ "+" ++ right) =
      .ok (.mk (left ++ "+" ++ right) (head.terms ++ tail.terms)) := by
  have size : (left ++ "+" ++ right).length = left.length + 1 + right.length := by
    rw [String.length_append, String.length_append]
    rfl
  have characters : (left ++ "+" ++ right).toList = left.toList ++ '+' :: right.toList := by
    rw [String.toList_append, String.toList_append, List.append_assoc]
    rfl
  have plain : Text.IsPlain '+' := ⟨rfl, by decide, by decide⟩
  have shorterLeft : left.length ≤ (left ++ "+" ++ right).length := by omega
  have shorterRight : right.length ≤ (left ++ "+" ++ right).length := by omega
  obtain ⟨_, partsLeft, splitLeft, termsLeft⟩ := (parse_eq_ok_iff shorterLeft).1 readLeft
  obtain ⟨_, partsRight, splitRight, termsRight⟩ := (parse_eq_ok_iff shorterRight).1 readRight
  refine (parse_eq_ok_iff (Nat.le_refl _)).2 ⟨rfl, partsLeft ++ partsRight, ?_, ?_⟩
  · rw [characters]
    refine (Text.split_append plain splitLeft _).trans ?_
    rw [splitRight]
    rfl
  · rw [List.mapM_append, termsLeft, termsRight]
    rfl

theorem not_white_space_of_quote {quote : Char} (isQuote : Text.Nesting.isQuote quote = true) :
    Text.isWhiteSpace quote = false := by
  simp only [Text.Nesting.isQuote, Bool.or_eq_true, decide_eq_true_eq] at isQuote
  rcases isQuote with rfl | rfl <;> rfl

theorem parse_quoted {quote : Char} (isQuote : Text.Nesting.isQuote quote = true) {text : String}
    (absent : quote ∉ text.toList) :
    parse (String.singleton quote ++ text ++ String.singleton quote) =
      .ok (.mk (String.singleton quote ++ text ++ String.singleton quote) [.literal text]) := by
  have characters : (String.singleton quote ++ text ++ String.singleton quote).toList =
      quote :: (text.toList ++ [quote]) := by
    simp
  have solid := not_white_space_of_quote isQuote
  have inside : unquote? (quote :: (text.toList ++ [quote])) = some text.toList := by
    simp [unquote?, isQuote]
  refine (parse_eq_ok_iff (Nat.le_refl _)).2 ⟨rfl, [quote :: (text.toList ++ [quote])], ?_, ?_⟩
  · rw [characters]
    exact Text.split_quoted isQuote absent
  · have term : ∀ readArgument, readTerm readArgument (quote :: (text.toList ++ [quote])) =
        .ok (.literal text) := by
      intro readArgument
      unfold readTerm
      rw [Text.trim_chars_between_solid solid solid]
      dsimp only
      rw [inside]
      exact congrArg (fun found => Except.ok (Term.literal found)) String.ofList_toList
    rw [List.mapM_cons, term]
    rfl

end Expression

-- What the parts resolve to

variable {context : MatchContext}

theorem term_values_append (first second : List Term) :
    termValues context (first ++ second) =
      termValues context first >>= fun head =>
        termValues context second >>= fun tail => .ok (head ++ tail) := by
  induction first with
  | nil =>
      rw [List.nil_append, termValues]
      change _ = termValues context second >>= fun tail => .ok tail
      cases termValues context second <;> rfl
  | cons term rest induction =>
      cases term with
      | literal text =>
          rw [List.cons_append, termValues, termValues, induction]
          cases termValues context rest with
          | error cause => rfl
          | ok head => cases termValues context second <;> rfl
      | reference reference =>
          rw [List.cons_append, termValues, termValues]
          cases Reference.value context reference with
          | ok value =>
              dsimp only
              rw [induction]
              cases termValues context rest with
              | error cause => rfl
              | ok head => cases termValues context second <;> rfl
          | error cause =>
              dsimp only
              split
              · exact induction
              · rfl

theorem to_list_strip_newlines (text : String) :
    (stripNewlines text).toList =
      text.toList.filter fun character => character ≠ '\n' ∧ character ≠ '\r' := by
  simp [stripNewlines]

theorem strip_newlines_append (first second : String) :
    stripNewlines (first ++ second) = stripNewlines first ++ stripNewlines second := by
  simp [stripNewlines, String.ofList_append]

theorem format_values_append {tree : Tree} (first second : List Value) :
    formatValues tree (first ++ second) =
      formatValues tree first >>= fun left =>
        formatValues tree second >>= fun right => .ok (left ++ right) := by
  unfold formatValues
  rw [List.mapM_append]
  cases first.mapM (Value.render tree) with
  | error cause => rfl
  | ok head =>
      cases second.mapM (Value.render tree) with
      | error cause => rfl
      | ok tail =>
          change Except.ok (stripNewlines (String.join (head ++ tail))) = _
          rw [String.join_append, strip_newlines_append]
          rfl

theorem resolve_joined {first second whole : Expression}
    (joined : whole.terms = first.terms ++ second.terms) (context : MatchContext) :
    whole.resolve context =
      first.values context >>= fun head => second.values context >>= fun tail =>
        formatValues context.tree head >>= fun left =>
          formatValues context.tree tail >>= fun right => .ok (left ++ right) := by
  rw [Expression.resolve_eq, Expression.values, joined, term_values_append]
  unfold Expression.values
  cases termValues context first.terms with
  | error cause => rfl
  | ok head =>
      cases termValues context second.terms with
      | error cause => rfl
      | ok tail => exact format_values_append head tail

section

variable {first second whole : Expression} (joined : whole.terms = first.terms ++ second.terms)
include joined

theorem resolve_joined_ok {left right : String} (here : first.resolve context = .ok left)
    (behind : second.resolve context = .ok right) :
    whole.resolve context = .ok (left ++ right) := by
  rw [Expression.resolve_eq] at here behind
  obtain ⟨head, valuesHead, formatHead⟩ := exists_of_bind_ok here
  obtain ⟨tail, valuesTail, formatTail⟩ := exists_of_bind_ok behind
  rw [resolve_joined joined, valuesHead, valuesTail]
  simp only [bind, Except.bind, formatHead, formatTail]

theorem resolve_joined_error_behind {left : String} {cause : ResolveError}
    (here : first.resolve context = .ok left) (behind : second.resolve context = .error cause) :
    whole.resolve context = .error cause := by
  rw [Expression.resolve_eq] at here behind
  obtain ⟨head, valuesHead, formatHead⟩ := exists_of_bind_ok here
  rw [resolve_joined joined, valuesHead]
  rcases cases_of_bind_error behind with raised | ⟨tail, valuesTail, raised⟩
  · rw [raised]
    rfl
  · rw [valuesTail]
    simp only [bind, Except.bind, formatHead, raised]

/-- An unknown node is met when values are put into a text, after all of them were looked up: only
then may the second expression fail before the first one does. -/
theorem resolve_joined_error {cause : ResolveError} (raised : first.resolve context = .error cause) :
    whole.resolve context = .error cause ∨ (∃ node, cause = .unknownNode node) ∧
      ∃ other, second.resolve context = .error other ∧ whole.resolve context = .error other := by
  rw [Expression.resolve_eq] at raised
  rw [resolve_joined joined]
  rcases cases_of_bind_error raised with missing | ⟨head, valuesHead, unknown⟩
  · rw [missing]
    exact Or.inl rfl
  · rw [valuesHead]
    cases valuesTail : second.values context with
    | error other =>
        refine Or.inr ⟨unknown_of_format unknown, other, ?_, rfl⟩
        rw [Expression.resolve_eq, valuesTail]
        rfl
    | ok tail =>
        refine Or.inl ?_
        simp only [bind, Except.bind, unknown]

end

theorem format_text (tree : Tree) (text : String) :
    formatValues tree [.text text] = .ok (stripNewlines text) := by
  change Except.ok (stripNewlines (String.join [text])) = _
  simp

theorem resolve_literal (source text : String) (context : MatchContext) :
    (Expression.mk source [.literal text]).resolve context = .ok (stripNewlines text) := by
  rw [Expression.resolve_eq]
  simp only [Expression.values, Expression.terms, termValues]
  exact format_text context.tree text

/-- A plus sign between two expressions puts their terms together, and the texts that they resolve
to; where one fails, the whole fails for the same cause, that of the first one before that of the
second. A text in quotes is a literal that resolves to the text without its newlines: all other
characters are there, in their order, and no line feed or carriage return is. -/
theorem plus_concatenates :
    (∀ left right head tail, Expression.parse left = .ok head → Expression.parse right = .ok tail →
      ∃ whole, Expression.parse (left ++ "+" ++ right) = .ok whole ∧
        whole.terms = head.terms ++ tail.terms ∧
        ∀ context : MatchContext,
          (∀ first second, head.resolve context = .ok first → tail.resolve context = .ok second →
            whole.resolve context = .ok (first ++ second)) ∧
          (∀ cause, head.resolve context = .error cause → (∀ node, cause ≠ .unknownNode node) →
            whole.resolve context = .error cause) ∧
          (∀ first cause, head.resolve context = .ok first → tail.resolve context = .error cause →
            whole.resolve context = .error cause) ∧
          ∀ node, head.resolve context = .error (.unknownNode node) →
            whole.resolve context = .error (.unknownNode node) ∨
              ∃ cause, tail.resolve context = .error cause ∧
                whole.resolve context = .error cause) ∧
    ∀ quote text, Text.Nesting.isQuote quote = true → quote ∉ String.toList text →
      ∃ literal,
        Expression.parse (String.singleton quote ++ text ++ String.singleton quote) = .ok literal ∧
          literal.terms = [.literal text] ∧
            ∃ stripped : String,
              stripped.toList =
                text.toList.filter (fun character => character ≠ '\n' ∧ character ≠ '\r') ∧
              ∀ context, literal.resolve context = .ok stripped := by
  constructor
  · intro left right head tail readLeft readRight
    have joined : (Expression.mk (left ++ "+" ++ right) (head.terms ++ tail.terms)).terms =
        head.terms ++ tail.terms := rfl
    refine ⟨_, Expression.parse_append readLeft readRight, joined,
      fun context => ⟨?_, ?_, ?_, ?_⟩⟩
    · intro first second here behind
      exact resolve_joined_ok joined here behind
    · intro cause raised known
      rcases resolve_joined_error joined raised with same | ⟨⟨node, unknown⟩, _⟩
      · exact same
      · exact absurd unknown (known node)
    · intro first cause here behind
      exact resolve_joined_error_behind joined here behind
    · intro node raised
      exact (resolve_joined_error joined raised).imp_right And.right
  · intro quote text isQuote absent
    exact ⟨_, Expression.parse_quoted isQuote absent, rfl, stripNewlines text,
      to_list_strip_newlines text, resolve_literal _ text⟩

/-- Of three plus signs, the one that stands neither in quotes nor in a call parts the terms. Of a text
over two lines, in double quotes, the line break is left out and the single quote is not. -/
theorem plus_between_literal_and_call :
    (∃ whole, Expression.parse ("'a+b'" ++ "+" ++ "@x?.split('+')") = .ok whole ∧
      whole.terms = [.literal "a+b",
        .reference (.mk "x" true [.mk "split" [.mk "'+'" [.literal "+"]]])]) ∧
    ∃ literal, Expression.parse (String.singleton '"' ++ "it's\r\nlate" ++ String.singleton '"') =
        .ok literal ∧ ∀ context, literal.resolve context = .ok "it'slate" := by
  have literal : Expression.parse "'a+b'" = .ok (.mk "'a+b'" [.literal "a+b"]) := rfl
  have call : Expression.parse "@x?.split('+')" = .ok (.mk "@x?.split('+')"
      [.reference (.mk "x" true [.mk "split" [.mk "'+'" [.literal "+"]]])]) := rfl
  obtain ⟨whole, read, terms, _⟩ := plus_concatenates.1 _ _ _ _ literal call
  obtain ⟨quoted, readQuoted, _, stripped, characters, resolves⟩ :=
    plus_concatenates.2 '"' "it's\r\nlate" (by decide) (by decide)
  have same : stripped = "it'slate" := String.toList_injective (characters.trans (by decide))
  exact ⟨⟨whole, read, terms⟩, quoted, readQuoted, same ▸ resolves⟩

end SyntaxGraph
