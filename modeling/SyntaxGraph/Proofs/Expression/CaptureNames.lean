import SyntaxGraph.Document.Pattern
import SyntaxGraph.Proofs.Converter.Macro
import SyntaxGraph.Proofs.Expression.Reading
import SyntaxGraph.Proofs.Matching.Bindings

/-!
Names of captures where they are declared and where they are used. A document may name a capture by
a whole reference, of which only the base name counts; it is the name of the reference if that is
written tightly, and another one otherwise. A pattern may declare names that no expression can refer
to; those that can be referred to are the names of the grammar of references.
-/

set_option autoImplicit false

namespace SyntaxGraph

/-- What a reference says about its capture: all between the at sign and the first dot. -/
def referenceHead (source : String) : List Char :=
  ((Text.trimChars source.toList).drop 1).takeWhile (· ≠ '.')

/-- No white space around the name, and one mark in front of the first dot at most. -/
def IsTight (source : String) : Prop :=
  (∀ character ∈ referenceHead source, Text.isWhiteSpace character = false) ∧
    (referenceHead source).count '?' ≤ 1

instance (source : String) : Decidable (IsTight source) :=
  decidable_of_iff
    ((referenceHead source).all (fun character => !Text.isWhiteSpace character) = true ∧
      (referenceHead source).count '?' ≤ 1)
    (and_congr_left fun _ => by simp only [List.all_eq_true, Bool.not_eq_true'])

namespace Expression

theorem count_mark_of_name {name : List Char}
    (named : ∀ character ∈ name, isNameChar character = true) : name.count '?' = 0 :=
  List.count_eq_zero.2 fun listed => absurd (named '?' listed) (by decide)

/-- Dropping one mark leaves the name alone exactly if there is no white space around it, and no
other mark. -/
theorem drop_mark_eq_name_iff {head name before after : List Char}
    (named : ∀ character ∈ name, isNameChar character = true)
    (split : head = before ++ (name ++ after))
    (blank : ∀ character ∈ before, Text.isWhiteSpace character = true)
    (padding : ∀ character ∈ after, IsPadding character) :
    (dropMark head).1 = name ↔
      (∀ character ∈ head, Text.isWhiteSpace character = false) ∧ head.count '?' ≤ 1 := by
  constructor
  · intro same
    obtain ⟨mark, whole, isMark⟩ := drop_mark_append head
    rw [same] at whole
    rw [whole]
    constructor
    · intro character listed
      rcases List.mem_append.1 listed with inName | inMark
      · exact name_char_solid (named character inName)
      · rcases isMark with none | one
        · simp [none] at inMark
        · rw [one, List.mem_singleton] at inMark
          rw [inMark]
          decide
    · rw [List.count_append, count_mark_of_name named]
      rcases isMark with none | one
      · simp [none]
      · simp [one]
  · rintro ⟨solid, single⟩
    have nothingBefore : before = [] := by
      cases before with
      | nil => rfl
      | cons first rest =>
          have here := solid first (by simp [split])
          rw [blank first List.mem_cons_self] at here
          cases here
    have marks : ∀ character ∈ after, character = '?' := by
      intro character listed
      rcases padding character listed with white | same
      · rw [solid character (by simp [split, listed])] at white
        cases white
      · exact same
    subst nothingBefore
    rw [List.nil_append] at split
    have few : after.length ≤ 1 := by
      rw [split, List.count_append, count_mark_of_name named, Nat.zero_add,
        List.count_eq_length.2 fun character listed => (marks character listed).symm] at single
      exact single
    match after, few with
    | [], _ =>
        rw [split, List.append_nil]
        rw [drop_mark_unmarked fun listed => absurd (named '?' listed) (by decide)]
    | [mark], _ =>
        rw [split, marks mark List.mem_cons_self]
        simp [dropMark]

theorem base_name_of_parse {source : String} {expression : Expression} {reference : Reference}
    (yielded : parse source = .ok expression) (single : expression.terms = [.reference reference]) :
    (baseCaptureName source = reference.name ↔ IsTight source) ∧
      ∃ before after, referenceHead source = before ++ (reference.name.toList ++ after) ∧
        (∀ character ∈ before, Text.isWhiteSpace character = true) ∧
          ∀ character ∈ after, IsPadding character := by
  obtain ⟨text, signed, read⟩ := reference_of_parse yielded single
  obtain ⟨_, _, _, _, _, _, _, _, isName, _⟩ := parts_of_reference read
  obtain ⟨before, after, split, blank, padding⟩ := head_of_reference read
  have head : referenceHead source = text.takeWhile (· ≠ '.') := by
    rw [referenceHead, signed]
    rfl
  have base : baseCaptureName source = String.ofList (dropMark (referenceHead source)).1 := by
    unfold baseCaptureName
    rw [head, signed]
    rfl
  refine ⟨?_, before, after, by rw [head, split], blank, padding⟩
  rw [base, IsTight, ← drop_mark_eq_name_iff isName.2 (head.trans split) blank padding]
  constructor
  · intro same
    rw [← same, String.toList_ofList]
  · intro same
    rw [same, String.ofList_toList]

end Expression

/-- The text by which a converter names the node that it is about, instead of the match's start. -/
def ConverterDraft.place? : ConverterDraft → Option String
  | .node _ _ capture _ => capture
  | .connection _ _ _ _ _ position _ => position
  | .nodeWithParent _ _ capture _ _ => capture
  | .validateIdentifier _ _ | .recordImport _ _ | .argumentConnection .. => none

def Action.place? : Action → Option String
  | .node _ _ capture => capture
  | .connection _ _ _ _ _ position => position
  | .validateIdentifier _ | .recordImport _ => none

theorem place_of_check {engine : RegexEngine} {draft : ConverterDraft} {source : String} {converters : List Converter}
    (placed : draft.place? = some source) (checked : draft.check engine = .ok converters) :
    ∃ converter others, converters = converter :: others ∧
      converter.action.place? = some (baseCaptureName source) := by
  cases draft with
  | node name kind capture gates =>
      cases placed
      obtain ⟨action, checkedNode, continued⟩ := exists_of_bind_ok checked
      obtain ⟨_, _, built⟩ := exists_of_bind_ok continued
      cases built
      obtain ⟨_, _, _, rfl⟩ := ConverterDraft.action_of_check_node checkedNode
      exact ⟨_, _, rfl, rfl⟩
  | connection source target edge sourceKind targetKind position gates =>
      cases placed
      obtain ⟨action, checkedLink, continued⟩ := exists_of_bind_ok checked
      obtain ⟨_, _, built⟩ := exists_of_bind_ok continued
      cases built
      obtain ⟨_, _, _, _, _, _, _, rfl⟩ := ConverterDraft.action_of_check_connection checkedLink
      exact ⟨_, _, rfl, rfl⟩
  | nodeWithParent name kind capture edge gates =>
      cases placed
      obtain ⟨_, _, continued⟩ := exists_of_bind_ok checked
      obtain ⟨action, checkedNode, continued⟩ := exists_of_bind_ok continued
      obtain ⟨_, _, built⟩ := exists_of_bind_ok continued
      cases built
      obtain ⟨_, _, _, rfl⟩ := ConverterDraft.action_of_check_node checkedNode
      exact ⟨_, _, rfl, rfl⟩
  | validateIdentifier | recordImport | argumentConnection => cases placed

theorem tests_agree_iff {negated : Bool} {tested name : String} :
    (∀ context : MatchContext,
      (PredicateDraft.negateIf negated (.isBound tested)).evaluate context =
        .ok (context.captures.contains name != negated)) ↔ tested = name := by
  have evaluated : ∀ context : MatchContext,
      (PredicateDraft.negateIf negated (.isBound tested)).evaluate context =
        .ok (context.captures.contains tested != negated) := by
    intro context
    cases negated with
    | false => simp [PredicateDraft.negateIf, Predicate.evaluate]
    | true => simp [PredicateDraft.negateIf, Predicate.evaluate, Except.map]
  constructor
  · intro same
    -- A match that binds the one name and nothing else.
    have here := same ⟨⟨⟨#[], none⟩, 0, StringMap.empty.insert tested 0, []⟩, none⟩
    have here := Except.ok.inj ((evaluated _).symm.trans here)
    have bound : StringMap.contains ((StringMap.empty : Captures).insert tested 0) tested = true :=
      Captures.contains_insert.2 (Or.inl rfl)
    have alike : StringMap.contains ((StringMap.empty : Captures).insert tested 0) name = true := by
      rw [bound] at here
      cases negated <;> simpa using here.symm
    rcases Captures.contains_insert.1 alike with named | empty
    · exact named.symm
    · cases empty
  · rintro rfl
    exact evaluated

/-- A place is found under one name wherever it is under another only if they are the same: where
neither is bound, the names are reported. -/
theorem anchors_agree_iff {placed name : String} :
    (∀ site : MatchSite, site.anchor (some placed) = site.anchor (some name)) ↔ placed = name := by
  constructor
  · intro same
    have here := same ⟨⟨#[], none⟩, 0, StringMap.empty, []⟩
    simpa [MatchSite.anchor] using here
  · rintro rfl site
    rfl

/-- A text that is read as one reference names a capture in two ways: as an expression, and by its
base name as a test whether it is bound or as the place of a converter. The base name has the name
of the reference in it, and otherwise only white space and marks around it. All uses are about one
capture exactly if the text is tight. -/
theorem base_name_agrees_iff_tight {source : String} {expression : Expression}
    {reference : Reference} (read : Expression.parse source = .ok expression)
    (single : expression.terms = [.reference reference]) :
    (∃ before after, referenceHead source = before ++ (reference.name.toList ++ after) ∧
      (∀ character ∈ before, Text.isWhiteSpace character = true) ∧
        ∀ character ∈ after, Expression.IsPadding character) ∧
    (baseCaptureName source = reference.name ↔ IsTight source) ∧
    (∀ engine negated, ∃ predicate,
      (PredicateDraft.isBound negated source).check engine = .ok predicate ∧
      ((∀ context : MatchContext, predicate.evaluate context =
        .ok (context.captures.contains reference.name != negated)) ↔ IsTight source)) ∧
    ∀ engine draft converters, ConverterDraft.place? draft = some source →
      draft.check engine = .ok converters →
      ∃ converter others capture, converters = converter :: others ∧
        converter.action.place? = some capture ∧
          ((∀ site : MatchSite, site.anchor (some capture) = site.anchor (some reference.name)) ↔
            IsTight source) := by
  obtain ⟨agrees, before, after, split, blank, padding⟩ :=
    Expression.base_name_of_parse read single
  refine ⟨⟨before, after, split, blank, padding⟩, agrees, ?_, ?_⟩
  · intro engine negated
    exact ⟨_, rfl, tests_agree_iff.trans agrees⟩
  · intro engine draft converters placed checked
    obtain ⟨converter, others, same, named⟩ := place_of_check placed checked
    exact ⟨converter, others, _, same, named, anchors_agree_iff.trans agrees⟩

theorem marked_call_names_capture :
    Expression.parse "@x?.node" =
        .ok (.mk "@x?.node" [.reference (.mk "x" true [.mk "node" []])]) ∧
      IsTight "@x?.node" ∧ baseCaptureName "@x?.node" = "x" := by
  have read : Expression.parse "@x?.node" =
      .ok (.mk "@x?.node" [.reference (.mk "x" true [.mk "node" []])]) := rfl
  have tight : IsTight "@x?.node" := by decide
  exact ⟨read, tight, (base_name_agrees_iff_tight read rfl).2.1.2 tight⟩

/-- Two marks, or white space behind the at sign: an expression refers to the capture `x`, and a test
whether it is bound asks for another one. -/
theorem loose_references_test_others :
    (∃ expression, Expression.parse "@x??" = .ok expression ∧
      expression.terms = [.reference (.mk "x" true [])] ∧ baseCaptureName "@x??" = "x?") ∧
    (∃ expression, Expression.parse "@ x" = .ok expression ∧
      expression.terms = [.reference (.mk "x" false [])] ∧ baseCaptureName "@ x" = " x") ∧
    ∃ predicate, (PredicateDraft.isBound false "@ x").check Regex.engine = .ok predicate ∧
      predicate.evaluate ⟨⟨⟨#[⟨0, "f", "f", ⟨0, 1, 1, 0⟩, none, []⟩], some 0⟩, 0,
        StringMap.empty.insert "x" 0, []⟩, none⟩ = .ok false :=
  ⟨⟨_, rfl, rfl, rfl⟩, ⟨_, rfl, rfl, rfl⟩, _, rfl, rfl⟩

-- Names that patterns declare

mutual

/-- A pattern that was accepted declares names only that are not blank and start with no at sign. -/
theorem capture_name_of_check (draft : PatternDraft) {pattern : Pattern}
    (accepted : draft.check = .ok pattern) {form : NodeForm} (occurs : form.OccursIn pattern)
    {name : String} (declared : name ∈ form.captures) : isCaptureName name = true := by
  match draft with
  | .alternatives options optional =>
      rw [PatternDraft.check] at accepted
      split at accepted
      · cases accepted
      obtain ⟨patterns, checked, accepted⟩ := exists_of_bind_ok accepted
      cases accepted
      cases occurs with
      | option listed inside => exact capture_name_of_check_all options checked listed inside declared
  | .node rule captures children forbidden optional =>
      rw [PatternDraft.check] at accepted
      split at accepted
      · cases accepted
      dsimp only at accepted
      split at accepted
      · cases accepted
      rename_i fine
      obtain ⟨patterns, checked, accepted⟩ := exists_of_bind_ok accepted
      cases accepted
      cases occurs with
      | root same =>
          subst same
          simpa using List.find?_eq_none.1 fine name declared
      | child listed inside =>
          exact capture_name_of_check_all children checked listed inside declared

theorem capture_name_of_check_all (drafts : List PatternDraft) {patterns : List Pattern}
    (accepted : PatternDraft.checkAll drafts = .ok patterns) {pattern : Pattern}
    (listed : pattern ∈ patterns) {form : NodeForm} (occurs : form.OccursIn pattern)
    {name : String} (declared : name ∈ form.captures) : isCaptureName name = true := by
  match drafts with
  | [] =>
      cases accepted
      cases listed
  | draft :: rest =>
      rw [PatternDraft.checkAll] at accepted
      obtain ⟨first, checked, accepted⟩ := exists_of_bind_ok accepted
      obtain ⟨others, checkedRest, accepted⟩ := exists_of_bind_ok accepted
      cases accepted
      rcases List.mem_cons.1 listed with same | later
      · rw [same] at occurs
        exact capture_name_of_check draft checked occurs declared
      · exact capture_name_of_check_all rest checkedRest later occurs declared

end

/-- Of the names that an accepted pattern declares, those can be referred to that are names of the
grammar of references: behind an at sign they read as references to themselves. No expression at all
refers to any other, whether on its own or in the argument of a call. -/
theorem declared_name_referable_iff {draft : PatternDraft} {pattern : Pattern}
    (accepted : draft.check = .ok pattern) {form : NodeForm} (occurs : form.OccursIn pattern)
    {name : String} (declared : name ∈ form.captures) :
    isCaptureName name = true ∧
    ((∃ expression, Expression.parse ("@" ++ name) = .ok expression ∧
      expression.terms = [.reference (.mk name false [])]) ↔ Expression.IsName name) ∧
    ((∃ source expression, Expression.parse source = .ok expression ∧ name ∈ expression.names) ↔
      Expression.IsName name) := by
  refine ⟨capture_name_of_check draft accepted occurs declared, ⟨?_, ?_⟩, ?_, ?_⟩
  · rintro ⟨expression, read, single⟩
    apply Expression.is_name_of_parse read
    obtain ⟨source, terms⟩ := expression
    cases single
    simp [Expression.names, termNames, Reference.names]
  · intro isName
    exact ⟨_, Expression.parse_name isName, rfl⟩
  · rintro ⟨source, expression, read, referred⟩
    exact Expression.is_name_of_parse read name referred
  · intro isName
    exact ⟨_, _, Expression.parse_name isName, by simp [Expression.names, termNames, Reference.names]⟩

theorem underscored_name_referable :
    let pattern := Pattern.node "f" [] [.node "name" ["own_name"] [] [] true] [] false
    (PatternDraft.node "f" [] [.node "name" ["own_name"] [] [] true] [] false).check =
        .ok pattern ∧
      NodeForm.OccursIn ⟨"name", ["own_name"], [], []⟩ pattern ∧
      ∃ expression, Expression.parse "@own_name" = .ok expression ∧
        expression.terms = [.reference (.mk "own_name" false [])] := by
  intro pattern
  have accepted : (PatternDraft.node "f" [] [.node "name" ["own_name"] [] [] true] [] false).check =
      .ok pattern := rfl
  have occurs : NodeForm.OccursIn ⟨"name", ["own_name"], [], []⟩ pattern :=
    .child List.mem_cons_self (.root rfl)
  refine ⟨accepted, occurs, ?_⟩
  exact (declared_name_referable_iff accepted occurs List.mem_cons_self).2.1.2 (by decide)

/-- Three names that a pattern may declare. Behind an at sign the first is refused, the second refers
to another capture, and the third reads as two terms; nothing refers to any of them. -/
theorem declared_names_out_of_reach :
    let names := ["a b", "x.y", "x+y"]
    (PatternDraft.node "f" names [] [] false).check = .ok (.node "f" names [] [] false) ∧
      Expression.parse "@a b" = .error ⟨"@a b", .captureName "a b"⟩ ∧
      Expression.parse "@x.y" = .ok (.mk "@x.y" [.reference (.mk "x" false [.mk "y" []])]) ∧
      Expression.parse "@x+y" =
        .ok (.mk "@x+y" [.reference (.mk "x" false []), .literal "y"]) ∧
      ∀ name ∈ names, ∀ source expression, Expression.parse source = .ok expression →
        name ∉ expression.names := by
  refine ⟨rfl, rfl, rfl, rfl, ?_⟩
  intro name listed source expression read referred
  have isName := Expression.is_name_of_parse read name referred
  have unfit : ∀ name ∈ ["a b", "x.y", "x+y"], ¬Expression.IsName name := by decide
  exact unfit name listed isName

end SyntaxGraph
