import Mathlib.Data.List.Forall2
import SyntaxGraph.Proofs.Expression.Locality
import SyntaxGraph.Proofs.Text.Alphanumeric
import SyntaxGraph.Proofs.Text.Splitting

/-!
What is read from the text of a reference. Its name consists of letters, digits, underscores and
hyphens, so neither white space nor anything that quotes, nests, separates or marks is part of it;
the name is what stands between the at sign and the first dot, less white space and question marks
around it. Nothing else is ever referred to, and every such name is: behind an at sign it reads as
a reference to itself.
-/

set_option autoImplicit false

namespace SyntaxGraph

theorem forall₂_of_mapM {Cause Item Result : Type} {read : Item → Except Cause Result}
    {items : List Item} {results : List Result} (yielded : items.mapM read = .ok results) :
    List.Forall₂ (fun item result => read item = .ok result) items results := by
  induction items generalizing results with
  | nil =>
      cases yielded
      exact List.Forall₂.nil
  | cons item rest induction =>
      rw [List.mapM_cons] at yielded
      obtain ⟨result, here, yielded⟩ := exists_of_bind_ok yielded
      obtain ⟨others, behind, yielded⟩ := exists_of_bind_ok yielded
      cases yielded
      exact List.Forall₂.cons here (induction behind)

theorem source_of_result {Item Result : Type} {read : Item → Result → Prop} {items : List Item}
    {results : List Result} (each : List.Forall₂ read items results) :
    ∀ result ∈ results, ∃ item, read item result := by
  induction each with
  | nil => simp
  | cons here _ induction =>
      intro result listed
      rcases List.mem_cons.1 listed with same | later
      · rw [same]
        exact ⟨_, here⟩
      · exact induction result later

theorem mem_argument_names {name : String} {arguments : List Expression} :
    name ∈ argumentNames arguments ↔ ∃ argument ∈ arguments, name ∈ argument.names := by
  induction arguments with
  | nil => simp [argumentNames]
  | cons argument rest induction => simp [argumentNames, induction]

theorem mem_call_names {name : String} {calls : List DotCall} :
    name ∈ callNames calls ↔ ∃ call ∈ calls, name ∈ argumentNames call.arguments := by
  induction calls with
  | nil => simp [callNames]
  | cons call rest induction =>
      obtain ⟨called, arguments⟩ := call
      simp [callNames, induction, DotCall.arguments]

theorem mem_reference_names {name : String} {reference : Reference} :
    name ∈ reference.names ↔ name = reference.name ∨ name ∈ callNames reference.calls := by
  obtain ⟨own, optional, calls⟩ := reference
  simp [Reference.names, Reference.name, Reference.calls]

theorem mem_term_names {name : String} {terms : List Term} :
    name ∈ termNames terms ↔ ∃ reference, .reference reference ∈ terms ∧ name ∈ reference.names := by
  induction terms with
  | nil => simp [termNames]
  | cons term rest induction => cases term <;> simp [termNames, induction]

namespace Expression

/-- The names that the grammar of references knows. -/
def IsName (name : String) : Prop :=
  name.toList ≠ [] ∧ ∀ character ∈ name.toList, isNameChar character = true

instance (name : String) : Decidable (IsName name) :=
  decidable_of_iff (name.toList ≠ [] ∧ name.toList.all isNameChar = true)
    (and_congr_right fun _ => List.all_eq_true)

theorem ne_of_name_char {character other : Char} (named : isNameChar character = true)
    (unnamed : isNameChar other = false) : character ≠ other := by
  intro same
  rw [same, unnamed] at named
  cases named

theorem name_char_solid {character : Char} (named : isNameChar character = true) :
    Text.isWhiteSpace character = false := by
  by_contra solid
  have blank : Text.isWhiteSpace character = true := by simpa using solid
  simp only [isNameChar, Text.not_alphanumeric_of_white_space blank, Bool.false_or, Bool.or_eq_true,
    decide_eq_true_eq] at named
  rcases named with same | same <;> rw [same] at blank <;> exact absurd blank (by decide)

theorem name_char_plain {character : Char} (named : isNameChar character = true) :
    Text.IsPlain character := by
  have notSingle : character ≠ '\'' := ne_of_name_char named (by decide)
  have notDouble : character ≠ '"' := ne_of_name_char named (by decide)
  refine ⟨?_, ne_of_name_char named (by decide), ne_of_name_char named (by decide)⟩
  simp [Text.Nesting.isQuote, notSingle, notDouble]

theorem drop_mark_append (text : List Char) :
    ∃ mark, text = (dropMark text).1 ++ mark ∧ (mark = [] ∨ mark = ['?']) := by
  unfold dropMark
  split
  · rename_i marked
    refine ⟨['?'], ?_, Or.inr rfl⟩
    obtain ⟨inside, same⟩ := List.getLast?_eq_some_iff.1 marked
    simp [same]
  · exact ⟨[], (List.append_nil _).symm, Or.inl rfl⟩

theorem drop_mark_unmarked {text : List Char} (unmarked : '?' ∉ text) :
    dropMark text = (text, false) := by
  unfold dropMark
  rw [if_neg]
  intro marked
  exact unmarked (List.mem_of_getLast? marked)

theorem split_eq_ok_iff {separator : Char} {text : List Char} {parts : List (List Char)} :
    split separator text = .ok parts ↔ Text.splitTopLevel separator text = .ok parts := by
  unfold split
  cases Text.splitTopLevel separator text <;> simp

theorem parts_of_reference {readArgument : List Char → Except ExpressionFault Expression}
    {text : List Char} {reference : Reference}
    (yielded : readReference readArgument text = .ok reference) :
    ∃ marked mark first rest, Text.trimChars text = marked ++ mark ∧ (mark = [] ∨ mark = ['?']) ∧
      Text.splitTopLevel '.' marked = .ok (first :: rest) ∧
      reference.name = String.ofList (dropMark (Text.trimChars first)).1 ∧
      IsName reference.name ∧ rest.mapM (readCall readArgument) = .ok reference.calls := by
  obtain ⟨mark, split, isMark⟩ := drop_mark_append (Text.trimChars text)
  unfold readReference at yielded
  obtain ⟨segments, parted, yielded⟩ := exists_of_bind_ok yielded
  have parted : Text.splitTopLevel '.' (dropMark (Text.trimChars text)).1 = .ok segments :=
    split_eq_ok_iff.1 parted
  obtain ⟨first, rest, same⟩ : ∃ first rest, segments = first :: rest :=
    List.exists_cons_of_ne_nil (Text.parts_ne_nil parted)
  subst same
  dsimp only at yielded
  split at yielded
  · cases yielded
  · rename_i accepted
    obtain ⟨calls, read, yielded⟩ := exists_of_bind_ok yielded
    cases yielded
    refine ⟨_, mark, first, rest, split, isMark, parted, rfl, ?_, read⟩
    simpa [IsName, Reference.name] using accepted

/-- White space, or the mark of an optional reference. -/
def IsPadding (character : Char) : Prop := Text.isWhiteSpace character = true ∨ character = '?'

theorem padding_not_dot {character : Char} (padding : IsPadding character) : character ≠ '.' := by
  rintro rfl
  rcases padding with blank | same
  · exact absurd blank (by decide)
  · exact absurd same (by decide)

theorem undotted_of_named {first : List Char}
    (named : ∀ character ∈ (dropMark (Text.trimChars first)).1, isNameChar character = true) :
    ∀ character ∈ first, character ≠ '.' := by
  obtain ⟨before, after, outer, blankBefore, blankAfter⟩ := Text.trim_chars_between first
  obtain ⟨mark, inner, isMark⟩ := drop_mark_append (Text.trimChars first)
  intro character listed
  rw [outer, inner] at listed
  simp only [List.mem_append] at listed
  rcases listed with (blank | named' | marks) | blank
  · exact padding_not_dot (Or.inl (blankBefore character blank))
  · exact ne_of_name_char (named character named') (by decide)
  · rcases isMark with rfl | rfl
    · cases marks
    · exact padding_not_dot (Or.inr (List.mem_singleton.1 marks))
  · exact padding_not_dot (Or.inl (blankAfter character blank))

/-- Up to its first dot, a reference is its name with white space in front of it, and with white
space and marks behind it. -/
theorem head_of_reference {readArgument : List Char → Except ExpressionFault Expression}
    {text : List Char} {reference : Reference}
    (yielded : readReference readArgument text = .ok reference) :
    ∃ before after, text.takeWhile (· ≠ '.') = before ++ (reference.name.toList ++ after) ∧
      (∀ character ∈ before, Text.isWhiteSpace character = true) ∧
        ∀ character ∈ after, IsPadding character := by
  obtain ⟨marked, mark, first, rest, trimmed, isMark, parted, named, isName, _⟩ :=
    parts_of_reference yielded
  obtain ⟨front, back, outer, blankFront, blankBack⟩ := Text.trim_chars_between text
  obtain ⟨left, right, inner, blankLeft, blankRight⟩ := Text.trim_chars_between first
  obtain ⟨innerMark, split, isInnerMark⟩ := drop_mark_append (Text.trimChars first)
  have same : (dropMark (Text.trimChars first)).1 = reference.name.toList := by
    rw [named, String.toList_ofList]
  have inName : ∀ character ∈ (dropMark (Text.trimChars first)).1, isNameChar character = true := by
    rw [same]
    exact isName.2
  rw [same] at split
  rw [split] at inner
  rw [trimmed] at outer
  have paddingOfMark : ∀ {mark : List Char}, mark = [] ∨ mark = ['?'] →
      ∀ character ∈ mark, IsPadding character := by
    rintro mark (rfl | rfl) character listed
    · cases listed
    · exact Or.inr (List.mem_singleton.1 listed)
  have undotted : ∀ character ∈ front ++ first, (character ≠ '.' : Bool) = true := by
    intro character listed
    rw [decide_eq_true_eq]
    rcases List.mem_append.1 listed with here | here
    · exact padding_not_dot (Or.inl (blankFront character here))
    · exact undotted_of_named inName character here
  have blankBefore : ∀ character ∈ front ++ left, Text.isWhiteSpace character = true := by
    intro character listed
    rcases List.mem_append.1 listed with here | here
    · exact blankFront character here
    · exact blankLeft character here
  have paddingAfter : ∀ character ∈ innerMark ++ right, IsPadding character := by
    intro character listed
    rcases List.mem_append.1 listed with here | here
    · exact paddingOfMark isInnerMark character here
    · exact Or.inl (blankRight character here)
  rcases Text.first_of_split parted with whole | ⟨head, later, others, whole, _, marks⟩
  · -- No dot at the top level: the mark at the end belongs to the head.
    have sameFirst : first = marked := (List.cons.inj whole).1
    subst sameFirst
    refine ⟨front ++ left, innerMark ++ right ++ (mark ++ back), ?_, blankBefore, ?_⟩
    · have tail : ∀ character ∈ mark ++ back, (character ≠ '.' : Bool) = true := by
        intro character listed
        rw [decide_eq_true_eq]
        rcases List.mem_append.1 listed with here | here
        · exact padding_not_dot (paddingOfMark isMark character here)
        · exact padding_not_dot (Or.inl (blankBack character here))
      have all : text = front ++ first ++ (mark ++ back) := by
        rw [outer]
        simp only [List.append_assoc]
      rw [all, List.takeWhile_append_of_pos undotted, List.takeWhile_eq_self_iff.2 tail, inner]
      simp only [List.append_assoc]
    · intro character listed
      rcases List.mem_append.1 listed with here | here
      · exact paddingAfter character here
      · rcases List.mem_append.1 here with here | here
        · exact paddingOfMark isMark character here
        · exact Or.inl (blankBack character here)
  · have sameFirst : first = head := (List.cons.inj whole).1
    subst sameFirst
    refine ⟨front ++ left, innerMark ++ right, ?_, blankBefore, paddingAfter⟩
    have all : text = front ++ first ++ '.' :: (later ++ (mark ++ back)) := by
      rw [outer, marks]
      simp only [List.append_assoc, List.cons_append]
    rw [all, List.takeWhile_append_of_pos undotted, List.takeWhile_cons_of_neg (by decide), inner]
    simp only [List.append_assoc, List.append_nil]

theorem reference_of_term {readArgument : List Char → Except ExpressionFault Expression}
    {part : List Char} {reference : Reference}
    (yielded : readTerm readArgument part = .ok (.reference reference)) :
    ∃ text, Text.trimChars part = '@' :: text ∧
      readReference readArgument text = .ok reference := by
  unfold readTerm at yielded
  dsimp only at yielded
  split at yielded
  · cases yielded
  · split at yielded
    · rename_i text signed
      cases read : readReference readArgument text with
      | error fault =>
          rw [read] at yielded
          cases yielded
      | ok found =>
          rw [read] at yielded
          cases yielded
          exact ⟨text, signed, read⟩
    · cases yielded

theorem terms_of_parse {source : String} {expression : Expression}
    (yielded : parse source = .ok expression) :
    ∃ parts, Text.splitTopLevel '+' source.toList = .ok parts ∧
      List.Forall₂ (fun part term => readTerm (read source.length) part = .ok term) parts
        expression.terms := by
  unfold parse at yielded
  split at yielded
  · rename_i found read
    cases yielded
    rw [Expression.read] at read
    obtain ⟨parts, parted, read⟩ := exists_of_bind_ok read
    obtain ⟨terms, each, read⟩ := exists_of_bind_ok read
    cases read
    exact ⟨parts, split_eq_ok_iff.1 parted, forall₂_of_mapM each⟩
  · cases yielded

theorem reference_of_parse {source : String} {expression : Expression} {reference : Reference}
    (yielded : parse source = .ok expression) (single : expression.terms = [.reference reference]) :
    ∃ text, Text.trimChars source.toList = '@' :: text ∧
      readReference (read source.length) text = .ok reference := by
  obtain ⟨parts, parted, each⟩ := terms_of_parse yielded
  rw [single] at each
  cases each with
  | cons here behind =>
      cases behind
      rename_i part
      have whole : part = source.toList := by
        rcases Text.first_of_split parted with whole | ⟨first, later, rest, whole, more, _⟩
        · exact (List.cons.inj whole).1
        · exact absurd (List.cons.inj whole).2.symm more
      rw [whole] at here
      exact reference_of_term here

/-- The arguments of a call are read by the reader for arguments. -/
theorem arguments_of_call {readArgument : List Char → Except ExpressionFault Expression}
    {segment : List Char} {call : DotCall} (yielded : readCall readArgument segment = .ok call) :
    ∀ argument ∈ call.arguments, ∃ text, readArgument text = .ok argument := by
  unfold readCall at yielded
  dsimp only at yielded
  split at yielded
  · split at yielded <;> cases yielded
    intro argument listed
    cases listed
  · split at yielded
    · cases yielded
    · split at yielded
      · cases yielded
        intro argument listed
        cases listed
      · obtain ⟨parts, _, yielded⟩ := exists_of_bind_ok yielded
        obtain ⟨arguments, each, yielded⟩ := exists_of_bind_ok yielded
        cases yielded
        exact source_of_result (forall₂_of_mapM each)

/-- Whatever is read refers to names only, at every depth. -/
theorem is_name_of_read (bound : Nat) {text : List Char} {expression : Expression}
    (yielded : read bound text = .ok expression) : ∀ name ∈ expression.names, IsName name := by
  induction bound generalizing text expression with
  | zero =>
      cases yielded
      intro name listed
      cases listed
  | succ bound induction =>
      rw [read] at yielded
      obtain ⟨parts, _, yielded⟩ := exists_of_bind_ok yielded
      obtain ⟨terms, each, yielded⟩ := exists_of_bind_ok yielded
      cases yielded
      intro name listed
      rw [Expression.names] at listed
      obtain ⟨reference, termListed, listed⟩ := mem_term_names.1 listed
      obtain ⟨part, termRead⟩ := source_of_result (forall₂_of_mapM each) _ termListed
      obtain ⟨text, _, referenceRead⟩ := reference_of_term termRead
      obtain ⟨_, _, _, _, _, _, _, _, isName, calls⟩ := parts_of_reference referenceRead
      rcases mem_reference_names.1 listed with same | inCall
      · rw [same]
        exact isName
      · obtain ⟨call, callListed, inArgument⟩ := mem_call_names.1 inCall
        obtain ⟨argument, argumentListed, inside⟩ := mem_argument_names.1 inArgument
        obtain ⟨segment, callRead⟩ := source_of_result (forall₂_of_mapM calls) call callListed
        obtain ⟨inner, argumentRead⟩ := arguments_of_call callRead argument argumentListed
        exact induction argumentRead name inside

theorem is_name_of_parse {source : String} {expression : Expression}
    (yielded : parse source = .ok expression) : ∀ name ∈ expression.names, IsName name := by
  unfold parse at yielded
  split at yielded
  · rename_i read
    cases yielded
    exact is_name_of_read _ read
  · cases yielded

theorem split_named {separator : Char} (unnamed : isNameChar separator = false) {text : List Char}
    (named : ∀ character ∈ text, isNameChar character = true) :
    Text.splitTopLevel separator text = .ok [text] :=
  Text.split_plain fun character listed =>
    ⟨name_char_plain (named character listed), ne_of_name_char (named character listed) unnamed⟩

section

variable {name : String} (isName : IsName name) {segments : List (List Char)} {last : Char}
  (ends : (List.intercalate ['.'] (name.toList :: segments)).getLast? = some last)
  (solid : Text.isWhiteSpace last = false)
include isName ends solid

theorem read_reference_chain {readArgument : List Char → Except ExpressionFault Expression}
    {calls : List DotCall} (unmarked : last ≠ '?')
    (alone : ∀ segment ∈ segments, Text.splitTopLevel '.' segment = .ok [segment])
    (read : segments.mapM (readCall readArgument) = .ok calls) :
    readReference readArgument (List.intercalate ['.'] (name.toList :: segments)) =
      .ok (.mk name false calls) := by
  obtain ⟨first, rest, chars⟩ := List.exists_cons_of_ne_nil isName.1
  have inName : first ∈ name.toList := by rw [chars]; exact List.mem_cons_self
  have starts : (List.intercalate ['.'] (name.toList :: segments)).head? = some first := by
    rw [chars]
    cases segments <;> rfl
  have trimmed := Text.trim_chars_of_ends starts ends (name_char_solid (isName.2 first inName)) solid
  have noMark : dropMark (List.intercalate ['.'] (name.toList :: segments)) =
      (List.intercalate ['.'] (name.toList :: segments), false) := by
    rw [dropMark, if_neg]
    rw [ends]
    exact fun same => unmarked (Option.some.inj same)
  have parted : Expression.split '.' (List.intercalate ['.'] (name.toList :: segments)) =
      .ok (name.toList :: segments) :=
    split_eq_ok_iff.2 (Text.split_of_join ⟨rfl, by decide, by decide⟩ (List.cons_ne_nil _ _)
      (List.forall_mem_cons.2 ⟨split_named (by decide) isName.2, alone⟩))
  have nameTrimmed : Text.trimChars name.toList = name.toList :=
    Text.trim_chars_solid fun character listed => name_char_solid (isName.2 character listed)
  have nameUnmarked : dropMark name.toList = (name.toList, false) :=
    drop_mark_unmarked fun listed => absurd (isName.2 '?' listed) (by decide)
  have accepted : (name.toList.isEmpty || !name.toList.all isNameChar) = false := by
    simpa [IsName] using isName
  unfold readReference
  simp only [trimmed, noMark, parted, bind, Except.bind, List.headD_cons, nameTrimmed, nameUnmarked,
    accepted, List.drop_one, List.tail_cons, read]
  simp [pure, Except.pure]

theorem parse_chain {source : String}
    (spelled : source.toList = '@' :: List.intercalate ['.'] (name.toList :: segments))
    {calls : List DotCall} (unmarked : last ≠ '?')
    (alone : ∀ segment ∈ segments, Text.splitTopLevel '.' segment = .ok [segment] ∧
      Text.splitTopLevel '+' segment = .ok [segment])
    (read : segments.mapM (readCall (Expression.read source.length)) = .ok calls) :
    parse source = .ok (.mk source [.reference (.mk name false calls)]) := by
  have parted : Text.splitTopLevel '+' source.toList = .ok [source.toList] := by
    have chain : Text.splitTopLevel '+' (List.intercalate ['.'] (name.toList :: segments)) =
        .ok [List.intercalate ['.'] (name.toList :: segments)] :=
      Text.split_alone_join ⟨rfl, by decide, by decide⟩ (by decide)
        (List.forall_mem_cons.2 ⟨split_named (by decide) isName.2, fun segment listed =>
          (alone segment listed).2⟩)
    have sign : Text.splitTopLevel '+' ['@'] = .ok [['@']] := rfl
    rw [spelled, ← List.singleton_append]
    exact Text.split_alone_append sign chain
  have ended : source.toList.getLast? = some last := by
    rw [spelled, List.getLast?_cons, ends]
    rfl
  have trimmed : Text.trimChars source.toList = source.toList :=
    Text.trim_chars_of_ends (by rw [spelled]; rfl) ended (by decide) solid
  have term : readTerm (Expression.read source.length) source.toList =
      .ok (.reference (.mk name false calls)) := by
    have reference := read_reference_chain isName ends solid unmarked
      (fun segment listed => (alone segment listed).1) read
    unfold readTerm
    rw [trimmed, spelled]
    change (readReference _ _).map Term.reference = _
    rw [reference]
    rfl
  unfold parse
  rw [Expression.read, split_eq_ok_iff.2 parted]
  simp only [bind, Except.bind, List.mapM_cons, term, List.mapM_nil, pure, Except.pure]
  rw [String.ofList_toList]

end

theorem parse_name {name : String} (isName : IsName name) :
    parse ("@" ++ name) = .ok (.mk ("@" ++ name) [.reference (.mk name false [])]) := by
  have listed : name.toList.getLast isName.1 ∈ name.toList := List.getLast_mem isName.1
  have named := isName.2 _ listed
  have ends : (List.intercalate ['.'] [name.toList]).getLast? =
      some (name.toList.getLast isName.1) := by
    rw [List.intercalate_singleton, List.getLast?_eq_some_getLast isName.1]
  have spelled : ("@" ++ name).toList = '@' :: List.intercalate ['.'] [name.toList] := by
    rw [List.intercalate_singleton, String.toList_append]
    rfl
  exact parse_chain isName ends (name_char_solid named) spelled
    (ne_of_name_char named (by decide)) (by simp) rfl

end Expression

end SyntaxGraph
