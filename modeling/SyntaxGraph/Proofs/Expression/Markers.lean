import SyntaxGraph.Proofs.Expression.Calls
import SyntaxGraph.Proofs.Text.Occurrences

/-!
Texts cut at a marker. A marker in quotes goes through the reading of its expression unchanged,
whatever it contains apart from the quote. An argument is resolved like every expression, however,
and its newlines are gone when the call is made; what the call looks for has none.
-/

set_option autoImplicit false

namespace SyntaxGraph

namespace Expression

def quotedCall (called argument : String) : List Char :=
  called.toList ++ '(' :: '\'' :: (argument.toList ++ ['\'', ')'])

def quotedLiteral (text : String) : Expression := .mk ("'" ++ text ++ "'") [.literal text]

variable {readArgument : List Char → Except ExpressionFault Expression} {called argument : String}

theorem last_of_quoted_call (before : List Char) :
    (before ++ quotedCall called argument).getLast? = some ')' := by
  rw [List.getLast?_eq_some_iff]
  exact ⟨before ++ called.toList ++ '(' :: '\'' :: (argument.toList ++ ['\'']),
    by simp [quotedCall]⟩

theorem read_quoted_literal (unquoted : '\'' ∉ argument.toList) (bound : Nat)
    (enough : argument.length + 2 < bound) :
    Expression.read bound ('\'' :: (argument.toList ++ ['\''])) = .ok (quotedLiteral argument) := by
  have quote : String.singleton '\'' = "'" := rfl
  have parsed : parse ("'" ++ argument ++ "'") = .ok (quotedLiteral argument) := by
    rw [← quote]
    exact parse_quoted rfl unquoted
  have characters : ("'" ++ argument ++ "'").toList = '\'' :: (argument.toList ++ ['\'']) := by
    simp
  have size : ("'" ++ argument ++ "'").length = argument.length + 2 := by
    rw [String.length_append, String.length_append, ← quote, String.length_singleton]
    omega
  rw [← characters]
  exact read_of_parse parsed (by omega)

theorem read_call_word (isName : IsName called) :
    readCall readArgument called.toList = .ok (.mk called []) := by
  have trimmed : Text.trimChars called.toList = called.toList :=
    Text.trim_chars_solid fun character listed => name_char_solid (isName.2 character listed)
  have noArgument : called.toList.dropWhile (· ≠ '(') = [] := by
    rw [List.dropWhile_eq_nil_iff]
    intro character listed
    exact decide_eq_true (ne_of_name_char (isName.2 character listed) (by decide))
  have nonempty : called.toList.isEmpty = false := List.isEmpty_eq_false_iff.2 isName.1
  unfold readCall
  dsimp only
  rw [trimmed, noArgument]
  dsimp only
  rw [nonempty, String.ofList_toList]
  rfl

theorem read_call_quoted (isName : IsName called) (unquoted : '\'' ∉ argument.toList)
    {literal : Expression}
    (read : readArgument ('\'' :: (argument.toList ++ ['\''])) = .ok literal) :
    readCall readArgument (quotedCall called argument) = .ok (.mk called [literal]) := by
  obtain ⟨first, rest, chars⟩ := List.exists_cons_of_ne_nil isName.1
  have inName : first ∈ called.toList := by rw [chars]; exact List.mem_cons_self
  have trimmed : Text.trimChars (quotedCall called argument) = quotedCall called argument := by
    have starts : (quotedCall called argument).head? = some first := by
      rw [quotedCall, chars]
      rfl
    have ends : (quotedCall called argument).getLast? = some ')' := last_of_quoted_call []
    exact Text.trim_chars_of_ends starts ends (name_char_solid (isName.2 first inName)) (by decide)
  have named : ∀ character ∈ called.toList, (character ≠ '(' : Bool) = true := by
    intro character listed
    exact decide_eq_true (ne_of_name_char (isName.2 character listed) (by decide))
  have before : (quotedCall called argument).takeWhile (· ≠ '(') = called.toList := by
    rw [quotedCall, List.takeWhile_append_of_pos named, List.takeWhile_cons_of_neg (by decide),
      List.append_nil]
  have inside : (quotedCall called argument).dropWhile (· ≠ '(') =
      '(' :: '\'' :: (argument.toList ++ ['\'', ')']) := by
    rw [quotedCall, List.dropWhile_append_of_pos named, List.dropWhile_cons_of_neg (by decide)]
  have closing : '\'' :: (argument.toList ++ ['\'', ')']) =
      ('\'' :: (argument.toList ++ ['\''])) ++ [')'] := by simp
  have closed : ('\'' :: (argument.toList ++ ['\'', ')'])).getLast? = some ')' := by
    rw [closing, List.getLast?_concat]
  have inner : ('\'' :: (argument.toList ++ ['\'', ')'])).dropLast =
      '\'' :: (argument.toList ++ ['\'']) := by
    rw [closing, List.dropLast_concat]
  have visible : ('\'' :: (argument.toList ++ ['\''])).all Text.isWhiteSpace = false := rfl
  have nameTrimmed : Text.trimChars called.toList = called.toList :=
    Text.trim_chars_solid fun character listed => name_char_solid (isName.2 character listed)
  have single : split ',' ('\'' :: (argument.toList ++ ['\''])) =
      .ok ['\'' :: (argument.toList ++ ['\''])] :=
    split_eq_ok_iff.2 (Text.split_quoted rfl unquoted)
  unfold readCall
  dsimp only
  rw [trimmed, inside]
  dsimp only
  rw [if_neg (not_not_intro closed), inner, visible, before, nameTrimmed, String.ofList_toList, single]
  simp only [bind, Except.bind, List.mapM_cons, List.mapM_nil, read, pure, Except.pure]
  rfl

/-- No separator is seen in a call with a quoted argument, unless the name contains it. -/
theorem quoted_call_alone {separator : Char} (unnamed : isNameChar separator = false)
    (isName : IsName called) (unquoted : '\'' ∉ argument.toList) :
    Text.splitTopLevel separator (quotedCall called argument) =
      .ok [quotedCall called argument] :=
  Text.split_alone_append (split_named unnamed isName.2) (Text.split_quoted_argument rfl unquoted)

variable {name marker : String} (isName : IsName name) (unquoted : '\'' ∉ marker.toList)
include isName unquoted

theorem parse_until :
    parse ("@" ++ name ++ ".until('" ++ marker ++ "')") =
      .ok (.mk ("@" ++ name ++ ".until('" ++ marker ++ "')")
        [.reference (.mk name false [.mk "until" [quotedLiteral marker]])]) := by
  have called : IsName "until" := by decide
  have spelled : ("@" ++ name ++ ".until('" ++ marker ++ "')").toList =
      '@' :: List.intercalate ['.'] [name.toList, quotedCall "until" marker] := by
    simp [quotedCall, List.intercalate_cons_cons]
  have ends : (List.intercalate ['.'] [name.toList, quotedCall "until" marker]).getLast? =
      some ')' := by
    rw [List.intercalate_cons_cons, List.intercalate_singleton]
    exact last_of_quoted_call _
  apply parse_chain isName ends (by decide) spelled (by decide)
  · exact List.forall_mem_singleton.2 ⟨quoted_call_alone (by decide) called unquoted,
      quoted_call_alone (by decide) called unquoted⟩
  · have room : marker.length + 2 < ("@" ++ name ++ ".until('" ++ marker ++ "')").length := by
      have sign : "@".length = 1 := rfl
      have closing : "')".length = 2 := rfl
      simp only [String.length_append, sign, closing]
      omega
    have literal := read_quoted_literal unquoted _ room
    rw [List.mapM_cons, read_call_quoted called unquoted literal]
    rfl

theorem parse_split_last :
    parse ("@" ++ name ++ ".split('" ++ marker ++ "').last") =
      .ok (.mk ("@" ++ name ++ ".split('" ++ marker ++ "').last")
        [.reference (.mk name false [.mk "split" [quotedLiteral marker], .mk "last" []])]) := by
  have called : IsName "split" := by decide
  have behind : IsName "last" := by decide
  have spelled : ("@" ++ name ++ ".split('" ++ marker ++ "').last").toList =
      '@' :: List.intercalate ['.'] [name.toList, quotedCall "split" marker, "last".toList] := by
    simp [quotedCall, List.intercalate_cons_cons]
  have ends :
      (List.intercalate ['.'] [name.toList, quotedCall "split" marker, "last".toList]).getLast? =
        some 't' := by
    rw [List.intercalate_cons_cons, List.intercalate_cons_cons, List.intercalate_singleton,
      ← List.append_assoc]
    exact List.getLast?_append_of_ne_nil _ (by decide)
  apply parse_chain isName ends (by decide) spelled (by decide)
  · exact List.forall_mem_cons.2 ⟨⟨quoted_call_alone (by decide) called unquoted,
      quoted_call_alone (by decide) called unquoted⟩,
      List.forall_mem_singleton.2 ⟨rfl, rfl⟩⟩
  · have room : marker.length + 2 < ("@" ++ name ++ ".split('" ++ marker ++ "').last").length := by
      have sign : "@".length = 1 := rfl
      have closing : "').last".length = 7 := rfl
      simp only [String.length_append, sign, closing]
      omega
    have literal := read_quoted_literal unquoted _ room
    rw [List.mapM_cons, read_call_quoted called unquoted literal, List.mapM_cons,
      read_call_word behind]
    rfl

end Expression

-- What the calls make of a text

theorem until_yields_part_before (marker text : String) :
    ∃ call before, textCall? "until" [marker] = some call ∧ call text = .text before ∧
      ∀ part, Text.PartBefore marker.toList text.toList part ↔ part = before.toList := by
  have called : textCall? "until" [marker] = some fun text =>
      if marker.toList.isEmpty then .text text
      else .text (String.ofList (Text.beforeFirst marker.toList text.toList)) := rfl
  by_cases empty : marker.toList = []
  · refine ⟨_, text, called, if_pos (List.isEmpty_iff.2 empty), fun part => ?_⟩
    rw [empty]
    exact Text.parts_without_marker.1
  · refine ⟨_, _, called, if_neg (fun isEmpty => empty (List.isEmpty_iff.1 isEmpty)), fun part => ?_⟩
    rw [String.toList_ofList]
    exact Text.part_before_iff empty

theorem split_ends_with_part_behind (marker text : String) :
    ∃ call items behind, textCall? "split" [marker] = some call ∧ call text = .list items ∧
      items.getLast? = some behind ∧
        ∀ part, Text.PartBehind marker.toList text.toList part ↔ part = behind.toList := by
  have called : textCall? "split" [marker] = some fun text =>
      if marker.toList.isEmpty then .list [text]
      else .list ((Text.piecesBetween marker.toList text.toList).map String.ofList) := rfl
  by_cases empty : marker.toList = []
  · refine ⟨_, _, text, called, if_pos (List.isEmpty_iff.2 empty), rfl, fun part => ?_⟩
    rw [empty]
    exact Text.parts_without_marker.2
  · obtain ⟨rest, stands⟩ := Text.exists_part_behind marker.toList text.toList
    have last := (Text.part_behind_iff empty).1 stands
    refine ⟨_, _, String.ofList rest, called,
      if_neg (fun isEmpty => empty (List.isEmpty_iff.1 isEmpty)), ?_, fun part => ?_⟩
    · rw [List.getLast?_map, last]
      rfl
    · rw [String.toList_ofList, Text.part_behind_iff empty, last, Option.some.injEq, eq_comm]

section

variable {context : MatchContext} {name : String} {node : NodeId} {text : String}
  (bound : context.captures.find? name = some node) (reads : context.tree.text? node = some text)
include bound reads

theorem value_of_text_call {called marker : String} (notEntity : called ≠ "node")
    {call : String → Value} (answered : textCall? called [stripNewlines marker] = some call)
    (rest : List DotCall) :
    Reference.value context
        (.mk name false (.mk called [Expression.quotedLiteral marker] :: rest)) =
      applyCalls context name (call text) rest := by
  have argument : resolveAll context [Expression.quotedLiteral marker] =
      .ok [stripNewlines marker] := by
    rw [resolveAll, resolveAll, Expression.quotedLiteral, resolve_literal]
    rfl
  have rendered : (Value.node node).render context.tree = .ok text := by
    rw [Value.render, reads]
  have applied : applyCall context name (.node node) called [stripNewlines marker] =
      .ok (call text) := by
    rw [applyCall, if_neg notEntity, callOnText, answered, rendered]
    rfl
  have looked : context.lookup name = .ok (.node node) := by
    rw [MatchContext.lookup, bound]
  rw [Reference.value, looked]
  change applyCalls context name (.node node) _ = _
  rw [applyCalls, argument]
  change (applyCall context name (.node node) called [stripNewlines marker] >>= _) = _
  rw [applied]
  rfl

end

/-- The two calls that cut a text at a marker, for any marker without single quotes. An expression so
written refers to a capture exactly if the grammar knows its name. At a captured node, it resolves to
the part of the text before the first occurrence, or behind the last of the occurrences found from
the left, all of the text where there is none. What is looked for is the marker without its newlines;
those of the part are taken out of the outcome. -/
theorem marker_calls_cut_text {marker : String} (unquoted : '\'' ∉ marker.toList) (name : String) :
    let untilText := "@" ++ name ++ ".until('" ++ marker ++ "')"
    let lastText := "@" ++ name ++ ".split('" ++ marker ++ "').last"
    (∀ source ∈ [untilText, lastText],
      ((∃ expression, Expression.parse source = .ok expression ∧ name ∈ expression.names) ↔
        Expression.IsName name)) ∧
    (Expression.IsName name →
      ∃ cutBefore cutBehind, Expression.parse untilText = .ok cutBefore ∧
        Expression.parse lastText = .ok cutBehind ∧
        ∀ (context : MatchContext) node text, context.captures.find? name = some node →
          context.tree.text? node = some text →
          ∃ before behind : String,
            (∀ part, Text.PartBefore (stripNewlines marker).toList text.toList part ↔
              part = before.toList) ∧
            (∀ part, Text.PartBehind (stripNewlines marker).toList text.toList part ↔
              part = behind.toList) ∧
            cutBefore.resolve context = .ok (stripNewlines before) ∧
            cutBehind.resolve context = .ok (stripNewlines behind)) := by
  intro untilText lastText
  constructor
  · intro source listed
    constructor
    · rintro ⟨expression, read, referred⟩
      exact Expression.is_name_of_parse read name referred
    · intro isName
      have named : ∀ calls, name ∈ Expression.names (.mk source [.reference (.mk name false calls)]) :=
        fun calls => by simp [Expression.names, termNames, Reference.names]
      rcases List.mem_cons.1 listed with rfl | listed
      · exact ⟨_, Expression.parse_until isName unquoted, named _⟩
      · cases List.mem_singleton.1 listed
        exact ⟨_, Expression.parse_split_last isName unquoted, named _⟩
  · intro isName
    refine ⟨_, _, Expression.parse_until isName unquoted,
      Expression.parse_split_last isName unquoted, ?_⟩
    intro context node text bound reads
    obtain ⟨call, before, answered, cut, partBefore⟩ :=
      until_yields_part_before (stripNewlines marker) text
    obtain ⟨division, items, behind, divided, listed, last, partBehind⟩ :=
      split_ends_with_part_behind (stripNewlines marker) text
    refine ⟨before, behind, partBefore, partBehind, ?_, ?_⟩
    · rw [resolve_single _ rfl, value_of_text_call bound reads (by decide) answered, applyCalls, cut]
      exact format_text context.tree before
    · have lastItem : applyCall context name (.list items) "last" [] = .ok (.text behind) := by
        rw [applyCall, if_pos rfl, last]
        rfl
      rw [resolve_single _ rfl, value_of_text_call bound reads (by decide) divided, listed,
        applyCalls, resolveAll]
      change ((applyCall context name (.list items) "last" [] >>= fun value =>
        applyCalls context name value []) >>= _) = _
      rw [lastItem]
      change (applyCalls context name (.text behind) [] >>= _) = _
      rw [applyCalls]
      exact format_text context.tree behind

def textSite (text : String) : MatchContext :=
  ⟨⟨⟨#[⟨0, "f", text, ⟨0, 0, 1, 0⟩, none, []⟩], some 0⟩, 0, StringMap.empty.insert "x" 0, []⟩, none⟩

/-- The third colon belongs to no occurrence, since the first two make one. -/
theorem overlapping_markers_cut :
    '\'' ∉ "::".toList ∧ Expression.IsName "x" ∧
      (textSite "a:::\nb").captures.find? "x" = some 0 ∧
      (textSite "a:::\nb").tree.text? 0 = some "a:::\nb" ∧
      ∃ cutBefore cutBehind, Expression.parse ("@" ++ "x" ++ ".until('" ++ "::" ++ "')") =
          .ok cutBefore ∧
        Expression.parse ("@" ++ "x" ++ ".split('" ++ "::" ++ "').last") = .ok cutBehind ∧
        cutBefore.resolve (textSite "a:::\nb") = .ok "a" ∧
        cutBehind.resolve (textSite "a:::\nb") = .ok ":b" := by
  have unquoted : '\'' ∉ "::".toList := by decide
  have isName : Expression.IsName "x" := by decide
  have bound : (textSite "a:::\nb").captures.find? "x" = some 0 := rfl
  have reads : (textSite "a:::\nb").tree.text? 0 = some "a:::\nb" := rfl
  have nonempty : (stripNewlines "::").toList ≠ [] := by decide
  refine ⟨unquoted, isName, bound, reads, ?_⟩
  obtain ⟨cutBefore, cutBehind, readBefore, readBehind, cut⟩ :=
    (marker_calls_cut_text unquoted "x").2 isName
  obtain ⟨before, behind, partBefore, partBehind, resolvedBefore, resolvedBehind⟩ :=
    cut (textSite "a:::\nb") 0 "a:::\nb" bound reads
  have sameBefore : before = "a" := String.toList_injective
    ((partBefore "a".toList).1 ((Text.part_before_iff nonempty).2 (by decide))).symm
  have sameBehind : behind = ":\nb" := String.toList_injective
    ((partBehind ":\nb".toList).1 ((Text.part_behind_iff nonempty).2 (by decide))).symm
  refine ⟨cutBefore, cutBehind, readBefore, readBehind, ?_, ?_⟩
  · rw [resolvedBefore, sameBefore]
    decide
  · rw [resolvedBehind, sameBehind]
    decide

/-- A newline is found nowhere, for it is taken out of the marker, though the text has one. Nor is a
name with a blank in it referred to, though a match may bind it. -/
theorem newline_marker_cuts_nothing :
    let cutBefore := Expression.mk "@x.until('\n')"
      [.reference (.mk "x" false [.mk "until" [Expression.quotedLiteral "\n"]])]
    let cutBehind := Expression.mk "@x.split('\n').last"
      [.reference (.mk "x" false [.mk "split" [Expression.quotedLiteral "\n"], .mk "last" []])]
    (Text.PartBefore ['\n'] "a\nb".toList ['a'] ∧ Text.PartBehind ['\n'] "a\nb".toList ['b'] ∧
      Expression.parse "@x.until('\n')" = .ok cutBefore ∧
      Expression.parse "@x.split('\n').last" = .ok cutBehind ∧
      cutBefore.resolve (textSite "a\nb") = .ok "ab" ∧
      cutBehind.resolve (textSite "a\nb") = .ok "ab") ∧
    Expression.parse "@a b.until('m')" =
      .error ⟨"@a b.until('m')", .captureName "a b"⟩ :=
  ⟨⟨(Text.part_before_iff (by decide)).2 (by decide), (Text.part_behind_iff (by decide)).2 (by decide),
    rfl, rfl, rfl, rfl⟩, rfl⟩

end SyntaxGraph
