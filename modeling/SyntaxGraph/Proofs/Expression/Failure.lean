import SyntaxGraph.Proofs.Expression.Concatenation

/-!
When an expression fails. Its references at the top level are looked at from left to right: one that
is optional and absent leaves no trace, and the first other one without a value decides how the
expression fails. Whatever happens in calls and in their arguments happens to the reference that
they belong to. Apart from nodes that the tree never issued, whatever an expression fails for is an
absence.
-/

set_option autoImplicit false

namespace SyntaxGraph

namespace Reference

/-- The reference has a value, or is absent and may be. -/
def Settles (context : MatchContext) (reference : Reference) : Prop :=
  (∃ value, Reference.value context reference = .ok value) ∨
    reference.isOptional = true ∧
      ∃ cause, Reference.value context reference = .error cause ∧ cause.isAbsence = true

/-- The reference has no value, for a cause that it does not forgive. -/
def Fails (context : MatchContext) (reference : Reference) (cause : ResolveError) : Prop :=
  Reference.value context reference = .error cause ∧
    ¬(reference.isOptional = true ∧ cause.isAbsence = true)

/-- The leftmost of the references that fail does so for this cause. -/
def FirstFails (context : MatchContext) (references : List Reference) (cause : ResolveError) :
    Prop :=
  ∃ before reference after, references = before ++ reference :: after ∧
    (∀ earlier ∈ before, earlier.Settles context) ∧ reference.Fails context cause

variable {context : MatchContext} {reference : Reference} {cause : ResolveError}

theorem settles_or_fails (context : MatchContext) (reference : Reference) :
    reference.Settles context ∨ ∃ cause, reference.Fails context cause := by
  cases valued : Reference.value context reference with
  | ok value => exact Or.inl (Or.inl ⟨value, valued⟩)
  | error cause =>
      by_cases forgiven : reference.isOptional = true ∧ cause.isAbsence = true
      · exact Or.inl (Or.inr ⟨forgiven.1, cause, valued, forgiven.2⟩)
      · exact Or.inr ⟨cause, valued, forgiven⟩

theorem Fails.not_settles (fails : reference.Fails context cause) :
    ¬reference.Settles context := by
  obtain ⟨raised, unforgiven⟩ := fails
  rintro (⟨value, valued⟩ | ⟨optional, other, valued, absence⟩)
  · rw [raised] at valued
    cases valued
  · rw [raised] at valued
    cases valued
    exact unforgiven ⟨optional, absence⟩

theorem fails_absent_iff (absence : cause.isAbsence = true) :
    reference.Fails context cause ↔
      reference.isOptional = false ∧ Reference.value context reference = .error cause := by
  rw [Fails, absence, and_iff_left rfl, Bool.not_eq_true, and_comm]

theorem first_fails_cons {rest : List Reference} :
    FirstFails context (reference :: rest) cause ↔
      reference.Fails context cause ∨ reference.Settles context ∧ FirstFails context rest cause := by
  constructor
  · rintro ⟨before, failing, after, split, settled, fails⟩
    cases before with
    | nil =>
        cases split
        exact Or.inl fails
    | cons first before =>
        cases split
        obtain ⟨here, behind⟩ := List.forall_mem_cons.1 settled
        exact Or.inr ⟨here, before, failing, after, rfl, behind, fails⟩
  · rintro (fails | ⟨settles, before, failing, after, rfl, settled, fails⟩)
    · exact ⟨[], reference, rest, rfl, fun _ listed => absurd listed List.not_mem_nil, fails⟩
    · exact ⟨reference :: before, failing, after, rfl, List.forall_mem_cons.2 ⟨settles, settled⟩,
        fails⟩

theorem exists_first_fails {references : List Reference} (listed : reference ∈ references)
    (unsettled : ¬reference.Settles context) : ∃ cause, FirstFails context references cause := by
  induction references with
  | nil => exact absurd listed List.not_mem_nil
  | cons first rest induction =>
      rcases settles_or_fails context first with settles | ⟨cause, fails⟩
      · have later : reference ∈ rest :=
          (List.mem_cons.1 listed).resolve_left fun same => unsettled (same ▸ settles)
        obtain ⟨cause, behind⟩ := induction later
        exact ⟨cause, first_fails_cons.2 (Or.inr ⟨settles, behind⟩)⟩
      · exact ⟨cause, first_fails_cons.2 (Or.inl fails)⟩

end Reference

variable {context : MatchContext}

/-- An absent reference that may be absent leaves no trace. -/
theorem term_values_absent {reference : Reference} (optional : reference.isOptional = true)
    {cause : ResolveError} (raised : Reference.value context reference = .error cause)
    (absence : cause.isAbsence = true) (rest : List Term) :
    termValues context (.reference reference :: rest) = termValues context rest := by
  rw [termValues, raised]
  simp only [optional, absence, Bool.and_self, if_true]

theorem term_values_fails {reference : Reference} {cause : ResolveError}
    (fails : reference.Fails context cause) (rest : List Term) :
    termValues context (.reference reference :: rest) = .error cause := by
  obtain ⟨raised, unforgiven⟩ := fails
  rw [termValues, raised]
  rw [← Bool.and_eq_true] at unforgiven
  simp only [if_neg unforgiven]

/-- The values of terms are missing for one cause only, that of the leftmost failing reference. -/
theorem term_values_error_iff {terms : List Term} {cause : ResolveError} :
    termValues context terms = .error cause ↔
      Reference.FirstFails context (terms.filterMap Term.reference?) cause := by
  induction terms with
  | nil =>
      rw [termValues]
      constructor
      · intro raised
        cases raised
      · rintro ⟨before, _, _, split, _⟩
        exact absurd split (by simp)
  | cons term rest induction =>
      cases term with
      | literal text =>
          change _ ↔ Reference.FirstFails context (rest.filterMap Term.reference?) cause
          rw [← induction, termValues]
          cases termValues context rest <;> simp [bind, Except.bind, pure, Except.pure]
      | reference reference =>
          change _ ↔
            Reference.FirstFails context (reference :: rest.filterMap Term.reference?) cause
          rw [Reference.first_fails_cons, ← induction]
          rcases Reference.settles_or_fails context reference with settles | ⟨other, fails⟩
          · have unfailing : ¬reference.Fails context cause := fun fails => fails.not_settles settles
            rw [or_iff_right unfailing, and_iff_right settles]
            rcases settles with ⟨value, valued⟩ | ⟨optional, other, raised, absence⟩
            · rw [termValues, valued]
              cases termValues context rest <;> simp [bind, Except.bind, pure, Except.pure]
            · rw [term_values_absent optional raised absence]
          · rw [term_values_fails fails, or_iff_left fun settles => fails.not_settles settles.1]
            constructor
            · rintro ⟨⟩
              exact fails
            · intro again
              have same : other = cause := Except.error.inj (fails.1.symm.trans again.1)
              rw [same]

-- Marks

/-- A question mark stands at the end of a reference, or in front of its first dot. -/
def IsMarked (text : List Char) : Prop :=
  (Text.trimChars text).getLast? = some '?' ∨
    (Text.trimChars ((Text.trimChars text).takeWhile (· ≠ '.'))).getLast? = some '?'

namespace Expression

theorem drop_mark_marked (text : List Char) :
    (dropMark text).2 = true ↔ text.getLast? = some '?' := by
  unfold dropMark
  split <;> simp_all

theorem optional_of_read {readArgument : List Char → Except ExpressionFault Expression}
    {text : List Char} {reference : Reference}
    (yielded : readReference readArgument text = .ok reference) :
    reference.isOptional = true ↔ IsMarked text := by
  unfold readReference at yielded
  obtain ⟨segments, parted, yielded⟩ := exists_of_bind_ok yielded
  have parted : Text.splitTopLevel '.' (dropMark (Text.trimChars text)).1 = .ok segments :=
    split_eq_ok_iff.1 parted
  obtain ⟨first, rest, rfl⟩ : ∃ first rest, segments = first :: rest :=
    List.exists_cons_of_ne_nil (Text.parts_ne_nil parted)
  dsimp only at yielded
  split at yielded
  · cases yielded
  rename_i accepted
  obtain ⟨calls, _, yielded⟩ := exists_of_bind_ok yielded
  have marked : reference.isOptional =
      ((dropMark (Text.trimChars text)).2 || (dropMark (Text.trimChars first)).2) := by
    cases yielded
    rfl
  rw [marked, Bool.or_eq_true, drop_mark_marked, drop_mark_marked, IsMarked]
  apply or_congr_right'
  intro unmarked
  -- Without a mark at the end, what is split is the whole reference.
  have whole : (dropMark (Text.trimChars text)).1 = Text.trimChars text := by
    rw [dropMark, if_neg unmarked]
  rw [whole] at parted
  simp only [Bool.or_eq_true, not_or, Bool.not_eq_true', Bool.not_eq_false, List.all_eq_true]
    at accepted
  have undotted : ∀ character ∈ first, (decide (character ≠ '.')) = true := by
    simpa using undotted_of_named accepted.2
  have head : (Text.trimChars text).takeWhile (· ≠ '.') = first := by
    rcases Text.first_of_split parted with same | ⟨front, later, others, same, _, dotted⟩
    · rw [← (List.cons.inj same).1]
      exact List.takeWhile_eq_self_iff.2 undotted
    · rw [← (List.cons.inj same).1] at dotted
      rw [dotted, List.takeWhile_append_of_pos undotted, List.takeWhile_cons_of_neg (by decide),
        List.append_nil]
  rw [head]

theorem marks_of_parse {source : String} {expression : Expression}
    (yielded : parse source = .ok expression) :
    ∃ parts, Text.splitTopLevel '+' source.toList = .ok parts ∧
      List.Forall₂ (fun part term => ∀ reference, term = .reference reference →
        ∃ text, Text.trimChars part = '@' :: text ∧ (reference.isOptional = true ↔ IsMarked text))
        parts expression.terms := by
  obtain ⟨parts, parted, each⟩ := terms_of_parse yielded
  refine ⟨parts, parted, each.imp ?_⟩
  rintro part _ termRead reference rfl
  obtain ⟨text, signed, referenceRead⟩ := reference_of_term termRead
  exact ⟨text, signed, optional_of_read referenceRead⟩

-- Expressions

theorem resolve_of_first_fails {expression : Expression} {cause : ResolveError}
    (first : Reference.FirstFails context expression.references cause) :
    expression.resolve context = .error cause := by
  rw [resolve_eq, values, term_values_error_iff.2 first]
  rfl

theorem resolve_absent_iff {expression : Expression} {cause : ResolveError}
    (absence : cause.isAbsence = true) :
    expression.resolve context = .error cause ↔
      Reference.FirstFails context expression.references cause := by
  constructor
  · intro raised
    rw [resolve_eq] at raised
    rcases cases_of_bind_error raised with missing | ⟨values, _, unknown⟩
    · exact term_values_error_iff.1 missing
    · obtain ⟨node, rfl⟩ := unknown_of_format unknown
      cases absence
  · exact resolve_of_first_fails

theorem resolve_without_absent {source : String} {before after : List Term} {reference : Reference}
    (optional : reference.isOptional = true) {cause : ResolveError}
    (raised : Reference.value context reference = .error cause)
    (absence : cause.isAbsence = true) :
    (Expression.mk source (before ++ .reference reference :: after)).resolve context =
      (Expression.mk source (before ++ after)).resolve context := by
  simp only [resolve_eq, values, terms, term_values_append,
    term_values_absent optional raised absence]

end Expression

variable (known : context.toMatchSite.Known)
include known

/-- In a match that binds nodes of its own tree only, what an optional reference lacks is always
forgiven. -/
theorem Reference.not_settles_iff {reference : Reference} :
    ¬reference.Settles context ↔
      reference.isOptional = false ∧ ∃ cause, Reference.value context reference = .error cause := by
  have misses := (reference_misses_only context reference).lacks_only known
  cases valued : Reference.value context reference with
  | ok value =>
      have settles : reference.Settles context := Or.inl ⟨value, valued⟩
      simp [settles]
  | error cause =>
      have absence := misses.error_of_eq valued
      have forgiven : reference.Settles context ↔ reference.isOptional = true := by
        simp [Reference.Settles, valued, absence]
      simp [forgiven]

theorem Expression.resolve_fails_iff {expression : Expression} :
    (∃ cause, expression.resolve context = .error cause) ↔
      ∃ reference ∈ expression.references, reference.isOptional = false ∧
        ∃ cause, Reference.value context reference = .error cause := by
  constructor
  · rintro ⟨cause, raised⟩
    have absence := (resolve_lacks_only known expression).error_of_eq raised
    obtain ⟨before, reference, after, split, _, fails⟩ := (resolve_absent_iff absence).1 raised
    refine ⟨reference, ?_, (Reference.not_settles_iff known).1 fails.not_settles⟩
    rw [split]
    exact List.mem_append_right before List.mem_cons_self
  · rintro ⟨reference, listed, fails⟩
    obtain ⟨cause, first⟩ := Reference.exists_first_fails listed
      ((Reference.not_settles_iff known).2 fails)
    exact ⟨cause, resolve_of_first_fails first⟩

omit known

/-- An expression fails where its leftmost required reference without a value does, and for the same
cause, which is an absence unless the match binds a node that its tree never issued. A reference is
optional by a mark behind its name or at its end; then whatever is absent in it, also in its calls
and in their arguments, only takes the reference out of the expression. -/
theorem fails_at_first_required {source : String} {expression : Expression}
    (read : Expression.parse source = .ok expression) (context : MatchContext) :
    (∃ parts, Text.splitTopLevel '+' source.toList = .ok parts ∧
      List.Forall₂ (fun part term => ∀ reference, term = .reference reference →
        ∃ text, Text.trimChars part = '@' :: text ∧ (reference.isOptional = true ↔ IsMarked text))
        parts expression.terms) ∧
    (∀ cause, expression.resolve context = .error cause → context.Misses cause) ∧
    (∀ reference cause, Reference.value context reference = .error cause →
      context.Misses cause) ∧
    (∀ cause, cause.isAbsence = true →
      (expression.resolve context = .error cause ↔
        ∃ before reference after, expression.references = before ++ reference :: after ∧
          (∀ earlier ∈ before, earlier.Settles context) ∧ reference.isOptional = false ∧
            Reference.value context reference = .error cause)) ∧
    (∀ before reference after cause, expression.terms = before ++ .reference reference :: after →
      reference.isOptional = true → Reference.value context reference = .error cause →
      cause.isAbsence = true →
        expression.resolve context =
          (Expression.mk source (before ++ after)).resolve context) ∧
    (context.toMatchSite.Known →
      ((∃ cause, expression.resolve context = .error cause) ↔
        ∃ reference ∈ expression.references, reference.isOptional = false ∧
          ∃ cause, Reference.value context reference = .error cause) ∧
      ((∀ reference ∈ expression.references, reference.isOptional = true) →
        ∃ text, expression.resolve context = .ok text)) := by
  refine ⟨Expression.marks_of_parse read, ?_, ?_, ?_, ?_, fun known => ⟨?_, ?_⟩⟩
  · intro cause raised
    exact (resolve_misses_only context expression).error_of_eq raised
  · intro reference cause raised
    exact (reference_misses_only context reference).error_of_eq raised
  · intro cause absence
    rw [Expression.resolve_absent_iff absence, Reference.FirstFails]
    simp only [Reference.fails_absent_iff absence]
  · intro before reference after cause split optional raised absence
    obtain ⟨kept, terms⟩ := expression
    change terms = _ at split
    rw [split, Expression.resolve_without_absent optional raised absence]
    simp only [Expression.resolve]
  · exact Expression.resolve_fails_iff known
  · intro optional
    cases resolved : expression.resolve context with
    | ok text => exact ⟨text, rfl⟩
    | error cause =>
        obtain ⟨reference, listed, required, _⟩ :=
          (Expression.resolve_fails_iff known).1 ⟨cause, resolved⟩
        rw [optional reference listed] at required
        cases required

def functionSite : MatchContext :=
  ⟨⟨⟨#[⟨0, "function", "f(a)", ⟨0, 4, 1, 0⟩, none, []⟩], some 0⟩, 0, StringMap.empty.insert "x" 0,
    []⟩, none⟩

theorem function_site_known : functionSite.toMatchSite.Known := by
  constructor
  · rfl
  · intro name node found
    rw [functionSite, StringMap.find?_insert] at found
    split at found
    · cases found
      rfl
    · cases found

/-- The mark at the end forgives what an argument lacks; the next reference has no mark, and what
the last one lacks does not matter any more. Once all have marks, there is a text. -/
theorem unmarked_call_fails_behind_marked :
    (∃ expression, Expression.parse "@x.split(@y)? + @x.node + @z" = .ok expression ∧
      expression.resolve functionSite = .error (.unmappedNode "x")) ∧
    ∃ expression text, Expression.parse "@x.split(@y)? + @x?.node + @z?" = .ok expression ∧
      expression.resolve functionSite = .ok text := by
  let marked : Reference := .mk "x" true [.mk "split" [.mk "@y" [.reference (.mk "y" false [])]]]
  have settles : marked.Settles functionSite := Or.inr ⟨rfl, .missingCapture "y", rfl, rfl⟩
  constructor
  · let required : Reference := .mk "x" false [.mk "node" []]
    let behind : Reference := .mk "z" false []
    have read : Expression.parse "@x.split(@y)? + @x.node + @z" =
        .ok (.mk "@x.split(@y)? + @x.node + @z"
          [.reference marked, .reference required, .reference behind]) := rfl
    have settled : ∀ earlier ∈ [marked], earlier.Settles functionSite :=
      List.forall_mem_singleton.2 settles
    obtain ⟨_, _, _, absent, _⟩ := fails_at_first_required read functionSite
    exact ⟨_, read, (absent (.unmappedNode "x") rfl).2
      ⟨[marked], required, [behind], rfl, settled, rfl, rfl⟩⟩
  · have read : Expression.parse "@x.split(@y)? + @x?.node + @z?" =
        .ok (.mk "@x.split(@y)? + @x?.node + @z?" [.reference marked,
          .reference (.mk "x" true [.mk "node" []]), .reference (.mk "z" true [])]) := rfl
    obtain ⟨_, _, _, _, _, ofKnown⟩ := fails_at_first_required read functionSite
    obtain ⟨text, resolved⟩ := (ofKnown function_site_known).2 (by decide)
    exact ⟨_, text, read, resolved⟩

end SyntaxGraph
