import Mathlib.Data.List.TakeWhile
import SyntaxGraph.Outline.Parser
import SyntaxGraph.Outline.Printer
import SyntaxGraph.Proofs.Outcome

/-!
Reading outline notation inverts writing it. What is left after a node starts with a comma or a
closing parenthesis or is nothing at all, so that neither the rule nor the node can reach into it.
Only rules limit what can be written: texts may hold any characters.
-/

set_option autoImplicit false

namespace SyntaxGraph

namespace Outline

/-- A rule that can be written: a word of rule characters, or nothing. A single underscore would
be read as nothing. -/
def IsRule (rule : String) : Prop := rule ≠ "_" ∧ ∀ character ∈ rule.toList, isRuleChar character

/-- An outline with rules that can be written. -/
inductive Writable : Outline → Prop
  | node {rule : String} {text : Option String} {children : List Outline} (isRule : IsRule rule)
      (below : ∀ child ∈ children, child.Writable) : Writable (.node rule text children)

def EndsNode (rest : List Char) : Prop :=
  ∀ character ∈ rest.head?, character = ',' ∨ character = ')'

def siblingChars (siblings : List Outline) : List Char :=
  [',', ' '].intercalate (siblings.map chars)

def textChars : Option String → List Char
  | some text => '=' :: '"' :: (escapeText text.toList ++ ['"'])
  | none => []

def nestedChars : List Outline → List Char
  | [] => []
  | first :: others => '(' :: (siblingChars (first :: others) ++ [')'])

theorem chars_node (rule : String) (text : Option String) (children : List Outline) :
    (Outline.node rule text children).chars =
      ruleChars rule ++ textChars text ++ nestedChars children := by
  cases text <;> cases children <;> simp [chars, textChars, nestedChars, siblingChars]

-- Tokens

theorem skip_blanks_of_head {input : List Char}
    (head : ∀ character ∈ input.head?, isOutlineBlank character = false) :
    skipBlanks input = input := by
  cases input with
  | nil => rfl
  | cons character rest =>
      have solid : isOutlineBlank character = false := head character rfl
      rw [skipBlanks, List.dropWhile_cons_of_neg (by simp [solid])]

theorem skip_blanks_cons {character : Char} (solid : isOutlineBlank character = false)
    (rest : List Char) : skipBlanks (character :: rest) = character :: rest :=
  skip_blanks_of_head (by simpa using solid)

theorem rule_char_not_blank {character : Char} (inRule : isRuleChar character = true) :
    isOutlineBlank character = false := by
  by_contra blank
  simp only [isOutlineBlank, Bool.not_eq_false, Bool.or_eq_true, decide_eq_true_eq] at blank
  rcases blank with (((same | same) | same) | same) | same <;> subst same <;>
    exact absurd inRule (by decide)

theorem skip_blanks_of_ends {rest : List Char} (ends : EndsNode rest) : skipBlanks rest = rest := by
  apply skip_blanks_of_head
  intro character head
  rcases ends character head with same | same <;> subst same <;> decide

theorem is_rule_of_all {rule : String} (different : rule ≠ "_")
    (word : rule.toList.all isRuleChar = true) : IsRule rule :=
  ⟨different, List.all_eq_true.1 word⟩

theorem rule_chars_ne_nil (rule : String) : ruleChars rule ≠ [] := by
  rw [ruleChars]
  split
  · simp
  · simp_all

theorem IsRule.chars {rule : String} (isRule : IsRule rule) :
    ∀ character ∈ ruleChars rule, isRuleChar character = true := by
  rw [ruleChars]
  split
  · exact List.forall_mem_singleton.2 (by decide)
  · exact isRule.2

theorem read_rule_word {rule : String} (isRule : IsRule rule) (rest : List Char)
    (stops : ∀ character ∈ rest.head?, isRuleChar character = false) :
    readRule (ruleChars rule ++ rest) = .ok (rule, rest) := by
  have solid : skipBlanks (ruleChars rule ++ rest) = ruleChars rule ++ rest := by
    apply skip_blanks_of_head
    intro character head
    obtain ⟨first, later, split⟩ := List.exists_cons_of_ne_nil (rule_chars_ne_nil rule)
    rw [split, List.cons_append, List.head?_cons, Option.mem_some_iff] at head
    exact rule_char_not_blank (isRule.chars character (by simp [split, head]))
  have taken : (ruleChars rule ++ rest).takeWhile isRuleChar = ruleChars rule := by
    rw [List.takeWhile_append_of_pos isRule.chars]
    cases rest with
    | nil => simp
    | cons character rest => simp [stops character rfl]
  have dropped : (ruleChars rule ++ rest).dropWhile isRuleChar = rest := by
    rw [List.dropWhile_append_of_pos isRule.chars]
    cases rest with
    | nil => rfl
    | cons character rest => simp [stops character rfl]
  have read : (if ruleChars rule = ['_'] then "" else String.ofList (ruleChars rule)) = rule := by
    by_cases empty : rule = ""
    · simp [ruleChars, empty]
    · have different : rule.toList ≠ ['_'] := fun same => isRule.1 (String.ext same)
      simp [ruleChars, empty, different]
  simp only [readRule, solid, taken, dropped, read, List.isEmpty_iff,
    if_neg (rule_chars_ne_nil rule)]

theorem read_text_plain (reversed : List Char) {character : Char} (rest : List Char)
    (noQuote : character ≠ '"') (noBackslash : character ≠ '\\') :
    readText reversed (character :: rest) = readText (character :: reversed) rest := by
  rw [readText]
  · exact noQuote
  · intro same
    exact absurd same noBackslash
  · intro other later same
    exact absurd same noBackslash

/-- The escapes keep the closing quote apart from the quotes of the text. -/
theorem read_text_escaped (text reversed rest : List Char) :
    readText reversed (escapeText text ++ '"' :: rest) =
      .ok (String.ofList (reversed.reverse ++ text), rest) := by
  induction text generalizing reversed with
  | nil => simp [escapeText, readText]
  | cons character text induction =>
      have regroup : (character :: reversed).reverse ++ text =
          reversed.reverse ++ character :: text := by simp
      by_cases escaped : character = '"' ∨ character = '\\'
      · have step : escapeText (character :: text) = '\\' :: character :: escapeText text := by
          rcases escaped with same | same <;> subst same <;> rfl
        rw [step, List.cons_append, List.cons_append, readText, induction, regroup]
      · obtain ⟨noQuote, noBackslash⟩ := not_or.1 escaped
        have step : escapeText (character :: text) = character :: escapeText text := by
          simp [escapeText, noQuote, noBackslash]
        rw [step, List.cons_append, read_text_plain reversed _ noQuote noBackslash, induction,
          regroup]

theorem read_optional_text_written (text : String) (rest : List Char) :
    readOptionalText ('=' :: '"' :: (escapeText text.toList ++ '"' :: rest)) =
      .ok (some text, rest) := by
  have read := read_text_escaped text.toList [] rest
  simp only [List.reverse_nil, List.nil_append, String.ofList_toList] at read
  simp only [readOptionalText, skip_blanks_cons (show isOutlineBlank '=' = false by decide),
    readQuoted, skip_blanks_cons (show isOutlineBlank '"' = false by decide), read]
  rfl

theorem read_optional_text_none {rest : List Char}
    (stops : ∀ character ∈ rest.head?, character = '(' ∨ character = ',' ∨ character = ')') :
    readOptionalText rest = .ok (none, rest) := by
  have solid : skipBlanks rest = rest := by
    apply skip_blanks_of_head
    intro character head
    rcases stops character head with same | same | same <;> subst same <;> decide
  rw [readOptionalText, solid]
  split
  · rename_i later
    rcases stops '=' rfl with same | same | same <;> exact absurd same (by decide)
  · rfl

-- Nodes

theorem Writable.starts_with_rule {outline : Outline} (writable : outline.Writable) :
    ∃ character later, outline.chars = character :: later ∧ isRuleChar character = true := by
  cases writable with
  | @node rule text children isRule below =>
      obtain ⟨first, later, split⟩ := List.exists_cons_of_ne_nil (rule_chars_ne_nil rule)
      refine ⟨first, later ++ textChars text ++ nestedChars children, ?_, ?_⟩
      · rw [chars_node, split, List.cons_append, List.cons_append]
      · exact isRule.chars first (by simp [split])

theorem sibling_chars_cons (first second : Outline) (others : List Outline) :
    siblingChars (first :: second :: others) =
      first.chars ++ ',' :: ' ' :: siblingChars (second :: others) := by
  simp [siblingChars, List.intercalate]

theorem sibling_chars_start_with_rule {first : Outline} (others : List Outline)
    (writable : first.Writable) :
    ∃ character later, siblingChars (first :: others) = character :: later ∧
      isRuleChar character = true := by
  obtain ⟨character, later, split, inRule⟩ := writable.starts_with_rule
  cases others with
  | nil => exact ⟨character, later, by simpa [siblingChars, List.intercalate] using split, inRule⟩
  | cons second others =>
      refine ⟨character, later ++ ',' :: ' ' :: siblingChars (second :: others), ?_, inRule⟩
      rw [sibling_chars_cons, split, List.cons_append]

theorem read_rule_blank (input : List Char) : readRule (' ' :: input) = readRule input := rfl

theorem read_node_blank (bound : Nat) (input : List Char) :
    readNode (bound + 1) (' ' :: input) = readNode (bound + 1) input := by
  rw [readNode, readNode, read_rule_blank]

theorem read_siblings_blank (bound : Nat) (input : List Char) :
    readSiblings (bound + 2) (' ' :: input) = readSiblings (bound + 2) input := by
  rw [readSiblings, readSiblings, read_node_blank]

/-- What reading a node is to give. The bound counts two calls for each character. -/
def ReadsBack (outline : Outline) : Prop :=
  ∀ bound rest, EndsNode rest → 2 * outline.chars.length ≤ bound →
    readNode bound (outline.chars ++ rest) = .ok (outline, rest)

theorem read_siblings_back (first : Outline) (others : List Outline)
    (readsBack : ∀ sibling ∈ first :: others, sibling.ReadsBack) (bound : Nat) (rest : List Char)
    (enough : 2 * (siblingChars (first :: others)).length + 1 ≤ bound) :
    readSiblings bound (siblingChars (first :: others) ++ ')' :: rest) =
      .ok (first :: others, rest) := by
  have readFirst := readsBack first List.mem_cons_self
  induction others generalizing first bound with
  | nil =>
      obtain ⟨bound, rfl⟩ : ∃ fewer, bound = fewer + 1 := ⟨bound - 1, by omega⟩
      have alone : siblingChars [first] = first.chars := by simp [siblingChars, List.intercalate]
      rw [alone] at enough ⊢
      have read := readFirst bound (')' :: rest) (by simp [EndsNode]) (by omega)
      rw [readSiblings, read]
      simp [bind, Except.bind, skip_blanks_cons (show isOutlineBlank ')' = false by decide)]
  | cons second others induction =>
      obtain ⟨bound, rfl⟩ : ∃ fewer, bound = fewer + 1 := ⟨bound - 1, by omega⟩
      rw [sibling_chars_cons] at enough ⊢
      simp only [List.length_append, List.length_cons] at enough
      have readOthers := induction second
        (fun sibling member => readsBack sibling (List.mem_cons_of_mem _ member)) bound (by omega)
        (readsBack second (by simp))
      obtain ⟨bound, rfl⟩ : ∃ fewer, bound = fewer + 2 := ⟨bound - 2, by omega⟩
      rw [← read_siblings_blank] at readOthers
      have read := readFirst (bound + 2)
        (',' :: ' ' :: (siblingChars (second :: others) ++ ')' :: rest)) (by simp [EndsNode])
        (by omega)
      rw [readSiblings, List.append_assoc, List.cons_append, List.cons_append, read]
      simp [bind, Except.bind, skip_blanks_cons (show isOutlineBlank ',' = false by decide),
        readOthers]

theorem Writable.reads_back {outline : Outline} (writable : outline.Writable) :
    outline.ReadsBack := by
  induction writable with
  | @node rule text children isRule below induction =>
      intro bound rest ends enough
      rw [chars_node] at enough ⊢
      have head : ∀ character ∈ (nestedChars children ++ rest).head?,
          character = '(' ∨ character = ',' ∨ character = ')' := by
        cases children with
        | nil => exact fun character first => Or.inr (ends character first)
        | cons first others => simp [nestedChars]
      have readRule := read_rule_word isRule (textChars text ++ (nestedChars children ++ rest)) (by
        cases text with
        | some text => simp [textChars]; decide
        | none =>
            intro character first
            rcases head character first with same | same | same <;> subst same <;> decide)
      have readText : readOptionalText (textChars text ++ (nestedChars children ++ rest)) =
          .ok (text, nestedChars children ++ rest) := by
        cases text with
        | some text => simpa [textChars] using read_optional_text_written text _
        | none => exact read_optional_text_none head
      have longer : 0 < (ruleChars rule).length :=
        List.length_pos_iff.2 (rule_chars_ne_nil rule)
      simp only [List.length_append] at enough
      obtain ⟨bound, rfl⟩ : ∃ fewer, bound = fewer + 1 := ⟨bound - 1, by omega⟩
      rw [List.append_assoc, List.append_assoc, readNode, readRule]
      simp only [bind, Except.bind, readText]
      cases children with
      | nil =>
          rw [nestedChars, List.nil_append, skip_blanks_of_ends ends]
          split
          · rcases ends '(' rfl with same | same <;> exact absurd same (by decide)
          · rfl
      | cons first others =>
          obtain ⟨character, later, split, inRule⟩ :=
            sibling_chars_start_with_rule others (below first (by simp))
          have readOthers := read_siblings_back first others induction bound rest (by
            simp only [nestedChars, List.length_cons, List.length_append] at enough
            omega)
          have opened : nestedChars (first :: others) ++ rest =
              '(' :: (siblingChars (first :: others) ++ ')' :: rest) := by simp [nestedChars]
          rw [opened, skip_blanks_cons (show isOutlineBlank '(' = false by decide)]
          rw [split, List.cons_append] at readOthers ⊢
          have notClosed : character ≠ ')' := by
            intro same
            rw [same] at inRule
            exact absurd inRule (by decide)
          have solid := skip_blanks_cons (rule_char_not_blank inRule) (later ++ ')' :: rest)
          simp [solid, notClosed, readOthers]

theorem Writable.parse_render {outline : Outline} (writable : outline.Writable) :
    parse outline.render = .ok outline := by
  have read := writable.reads_back (2 * outline.chars.length + 2) [] (by simp [EndsNode]) (by omega)
  rw [List.append_nil] at read
  simp only [parse, render, String.toList_ofList, read]
  rfl

-- What can be read can be written

theorem read_rule_yields_rule (input : List Char) :
    Leads (fun _ => True) (fun read => IsRule read.1) (readRule input) := by
  simp only [readRule]
  split
  · trivial
  · split
    · exact ⟨by simp, by simp⟩
    · rename_i different
      refine ⟨fun same => different ?_, ?_⟩
      · simpa using congrArg String.toList same
      · intro character member
        rw [String.toList_ofList] at member
        exact List.mem_takeWhile_imp member

theorem read_yields_writable (bound : Nat) : ∀ input,
    Leads (fun _ => True) (fun read => read.1.Writable) (readNode bound input) ∧
      Leads (fun _ => True) (fun read => ∀ sibling ∈ read.1, sibling.Writable)
        (readSiblings bound input) := by
  induction bound with
  | zero => exact fun _ => ⟨trivial, trivial⟩
  | succ bound induction =>
      intro input
      constructor
      · rw [readNode]
        refine (read_rule_yields_rule input).bind fun ⟨rule, afterRule⟩ isRule => ?_
        have text : Leads (fun _ : Stop => True) (fun _ => True) (readOptionalText afterRule) := by
          cases readOptionalText afterRule <;> trivial
        refine text.bind fun ⟨text, afterText⟩ _ => ?_
        dsimp only
        split
        · split
          · exact Writable.node isRule (by simp)
          · exact (induction _).2.bind fun read below => Writable.node isRule below
        · exact Writable.node isRule (by simp)
      · rw [readSiblings]
        refine (induction input).1.bind fun ⟨first, afterFirst⟩ writable => ?_
        dsimp only
        split
        · refine (induction _).2.bind fun ⟨others, afterOthers⟩ below => ?_
          intro sibling member
          rcases List.mem_cons.1 member with same | later
          · rw [same]
            exact writable
          · exact below sibling later
        · intro sibling member
          rw [List.mem_singleton.1 member]
          exact writable
        · trivial

theorem writable_of_parse {source : String} {outline : Outline}
    (parsed : parse source = .ok outline) : outline.Writable := by
  have yields := (read_yields_writable (2 * source.toList.length + 2) source.toList).1
  rw [parse] at parsed
  cases read : readNode (2 * source.toList.length + 2) source.toList with
  | error stop => simp [read] at parsed
  | ok pair =>
      obtain ⟨found, rest⟩ := pair
      rw [read] at yields
      simp only [read] at parsed
      split at parsed
      · rw [← Except.ok.inj parsed]
        exact yields
      · cases parsed

end Outline

end SyntaxGraph
