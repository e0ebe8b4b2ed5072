import Mathlib.Data.String.Basic
import SyntaxGraph.Proofs.Outline.Reading

/-!
The language of outlines. Tokens are spelt with any white space before them, and a sentence is a list
of tokens that the notation's grammar derives from an outline. Reading finds a derivation wherever
there is one, and whatever it yields has one; where it stops, it stops inside the input.
-/

set_option autoImplicit false

namespace SyntaxGraph

inductive OutlineToken where
  | word (letters : List Char)
  | quoted (text : List Char)
  | equals
  | opening
  | closing
  | comma

namespace Outline

open OutlineToken

/-- A text between quotes: a backslash takes the next character as it is, and neither a backslash nor
a quote stands for itself. -/
inductive Escapes : List Char → List Char → Prop
  | nil : Escapes [] []
  | plain {character : Char} {text written : List Char} (noQuote : character ≠ '"')
      (noBackslash : character ≠ '\\') (later : Escapes text written) :
      Escapes (character :: text) (character :: written)
  | taken {character : Char} {text written : List Char} (later : Escapes text written) :
      Escapes (character :: text) ('\\' :: character :: written)

inductive Spells : OutlineToken → List Char → Prop
  | word {letters : List Char} (nonempty : letters ≠ [])
      (inRule : ∀ letter ∈ letters, isRuleChar letter = true) : Spells (.word letters) letters
  | quoted {text written : List Char} (escapes : Escapes text written) :
      Spells (.quoted text) ('"' :: (written ++ ['"']))
  | equals : Spells .equals ['=']
  | opening : Spells .opening ['(']
  | closing : Spells .closing [')']
  | comma : Spells .comma [',']

/-- The tokens one after another, with white space anywhere but inside of them. -/
inductive Written : List OutlineToken → List Char → Prop
  | done : Written [] []
  | blank {tokens : List OutlineToken} {chars : List Char} {character : Char}
      (isBlank : isOutlineBlank character = true) (later : Written tokens chars) :
      Written tokens (character :: chars)
  | token {token : OutlineToken} {tokens : List OutlineToken} {spelling chars : List Char}
      (spells : Spells token spelling) (later : Written tokens chars) :
      Written (token :: tokens) (spelling ++ chars)

def ruleOfWord (letters : List Char) : String :=
  if letters = ['_'] then "" else String.ofList letters

def textTokens : Option String → List OutlineToken
  | some text => [.equals, .quoted text.toList]
  | none => []

mutual

/-- The grammar `node := rule ('=' quoted)? ('(' (node (',' node)*)? ')')?`. -/
inductive Derives : Outline → List OutlineToken → Prop
  | node {letters : List Char} {text : Option String} {children : List Outline}
      {nested : List OutlineToken} (below : DerivesNested children nested) :
      Derives (.node (ruleOfWord letters) text children)
        (.word letters :: (textTokens text ++ nested))

inductive DerivesNested : List Outline → List OutlineToken → Prop
  | absent : DerivesNested [] []
  | empty : DerivesNested [] [.opening, .closing]
  | siblings {siblings : List Outline} {tokens : List OutlineToken}
      (derives : DerivesSiblings siblings tokens) :
      DerivesNested siblings (.opening :: (tokens ++ [.closing]))

inductive DerivesSiblings : List Outline → List OutlineToken → Prop
  | last {outline : Outline} {tokens : List OutlineToken} (derives : Derives outline tokens) :
      DerivesSiblings [outline] tokens
  | more {first : Outline} {others : List Outline} {tokens later : List OutlineToken}
      (derives : Derives first tokens) (behind : DerivesSiblings others later) :
      DerivesSiblings (first :: others) (tokens ++ .comma :: later)

end

/-- The source spells a sentence that the grammar derives from the outline. -/
def SpeltBy (outline : Outline) (source : String) : Prop :=
  ∃ tokens, Derives outline tokens ∧ Written tokens source.toList

-- Tokens

theorem Spells.head {token : OutlineToken} {spelling : List Char} (spells : Spells token spelling) :
    ∃ character later, spelling = character :: later ∧ isOutlineBlank character = false := by
  cases spells with
  | word nonempty inRule =>
      obtain ⟨character, later, rfl⟩ := List.exists_cons_of_ne_nil nonempty
      exact ⟨character, later, rfl, rule_char_not_blank (inRule character List.mem_cons_self)⟩
  | quoted _ => exact ⟨'"', _, rfl, by decide⟩
  | equals => exact ⟨'=', _, rfl, by decide⟩
  | opening => exact ⟨'(', _, rfl, by decide⟩
  | closing => exact ⟨')', _, rfl, by decide⟩
  | comma => exact ⟨',', _, rfl, by decide⟩

theorem skip_blanks_spelling {token : OutlineToken} {spelling : List Char}
    (spells : Spells token spelling) (rest : List Char) :
    skipBlanks (spelling ++ rest) = spelling ++ rest := by
  obtain ⟨character, later, rfl, solid⟩ := spells.head
  exact skip_blanks_cons solid (later ++ rest)

theorem skip_blanks_blank {character : Char} (isBlank : isOutlineBlank character = true)
    (rest : List Char) : skipBlanks (character :: rest) = skipBlanks rest := by
  rw [skipBlanks, List.dropWhile_cons_of_pos isBlank, skipBlanks]

theorem Written.skip_blanks {tokens : List OutlineToken} {chars : List Char}
    (written : Written tokens chars) :
    (tokens = [] ∧ skipBlanks chars = []) ∨
      ∃ token later spelling rest, tokens = token :: later ∧ Spells token spelling ∧
        skipBlanks chars = spelling ++ rest ∧ Written later rest := by
  induction written with
  | done => exact Or.inl ⟨rfl, rfl⟩
  | blank isBlank _ induction =>
      rw [skip_blanks_blank isBlank]
      exact induction
  | token spells later _ =>
      exact Or.inr ⟨_, _, _, _, rfl, spells, skip_blanks_spelling spells _, later⟩

theorem Written.skip_blanks_nil {chars : List Char} (written : Written [] chars) :
    skipBlanks chars = [] := by
  rcases written.skip_blanks with ⟨_, nothing⟩ | ⟨_, _, _, _, same, _⟩
  · exact nothing
  · cases same

theorem Written.skip_blanks_cons {token : OutlineToken} {later : List OutlineToken}
    {chars : List Char} (written : Written (token :: later) chars) :
    ∃ spelling rest, Spells token spelling ∧ skipBlanks chars = spelling ++ rest ∧
      Written later rest := by
  rcases written.skip_blanks with ⟨same, _⟩ | ⟨_, _, spelling, rest, same, spells, split, behind⟩
  · cases same
  · cases same
    exact ⟨spelling, rest, spells, split, behind⟩

theorem written_iff_skipped (tokens : List OutlineToken) (chars : List Char) :
    Written tokens chars ↔ Written tokens (skipBlanks chars) := by
  constructor
  · intro written
    induction written with
    | done => exact .done
    | blank isBlank _ induction =>
        rw [skip_blanks_blank isBlank]
        exact induction
    | token spells later _ =>
        rw [skip_blanks_spelling spells]
        exact .token spells later
  · intro written
    induction chars with
    | nil => exact written
    | cons character rest induction =>
        by_cases isBlank : isOutlineBlank character = true
        · rw [skip_blanks_blank isBlank] at written
          exact .blank isBlank (induction written)
        · rwa [Outline.skip_blanks_cons (Bool.eq_false_iff.2 isBlank)] at written

theorem Written.length_le {tokens : List OutlineToken} {chars : List Char}
    (written : Written tokens chars) : tokens.length ≤ chars.length := by
  induction written with
  | done => exact Nat.le_refl _
  | blank _ _ induction => exact Nat.le_succ_of_le induction
  | token spells _ induction =>
      obtain ⟨character, later, rfl, _⟩ := spells.head
      simp only [List.cons_append, List.length_cons, List.length_append]
      omega

-- What is read is derived

/-- The tokens are what is gone from the input when the rest is left. -/
structure Takes (tokens : List OutlineToken) (input rest : List Char) : Prop where
  left : rest <:+ input
  spelt : ∀ more, Written more rest → Written (tokens ++ more) input

def StopsIn (input : List Char) (stop : Stop) : Prop := stop.2 <:+ input

theorem StopsIn.earlier {input middle : List Char} (left : middle <:+ input) :
    ∀ stop : Stop, StopsIn middle stop → StopsIn input stop :=
  fun _ inside => List.IsSuffix.trans inside left

theorem Takes.trans {tokens later : List OutlineToken} {input middle rest : List Char}
    (first : Takes tokens input middle) (second : Takes later middle rest) :
    Takes (tokens ++ later) input rest := by
  refine ⟨second.left.trans first.left, fun more written => ?_⟩
  rw [List.append_assoc]
  exact first.spelt _ (second.spelt more written)

theorem skip_blanks_suffix (input : List Char) : skipBlanks input <:+ input :=
  List.dropWhile_suffix _

theorem takes_token {token : OutlineToken} {spelling : List Char} (spells : Spells token spelling)
    {input rest : List Char} (skipped : skipBlanks input = spelling ++ rest) :
    Takes [token] input rest := by
  refine ⟨?_, fun more written => ?_⟩
  · have left := skip_blanks_suffix input
    rw [skipped] at left
    exact (List.suffix_append spelling rest).trans left
  · rw [written_iff_skipped, skipped]
    exact .token spells written

theorem takes_blanks (input : List Char) : Takes [] input (skipBlanks input) :=
  ⟨skip_blanks_suffix input, fun more written => (written_iff_skipped more input).2 written⟩

theorem read_rule_takes (input : List Char) :
    Leads (StopsIn input)
      (fun read => ∃ letters, read.1 = ruleOfWord letters ∧ Takes [.word letters] input read.2)
      (readRule input) := by
  simp only [readRule]
  split
  · exact skip_blanks_suffix input
  · rename_i nonempty
    refine ⟨(skipBlanks input).takeWhile isRuleChar, rfl, takes_token (.word ?_ ?_) ?_⟩
    · exact fun nothing => nonempty (List.isEmpty_iff.2 nothing)
    · exact fun letter member => List.mem_takeWhile_imp member
    · exact List.takeWhile_append_dropWhile.symm

theorem read_text_takes (reversed input : List Char) :
    Leads (StopsIn input)
      (fun read => ∃ text written, read.1 = String.ofList (reversed.reverse ++ text) ∧
        Escapes text written ∧ input = written ++ '"' :: read.2)
      (readText reversed input) := by
  induction reversed, input using readText.induct with
  | case1 reversed => exact List.suffix_refl _
  | case2 reversed rest => exact ⟨[], [], by simp, .nil, rfl⟩
  | case3 reversed => exact List.nil_suffix
  | case4 reversed character rest induction =>
      rw [readText]
      refine induction.weaken (StopsIn.earlier (List.suffix_append ['\\', character] rest)) ?_
      rintro ⟨read, left⟩ ⟨text, written, same, escapes, split⟩
      refine ⟨character :: text, _, ?_, .taken escapes, ?_⟩
      · simpa using same
      · rw [split]
        rfl
  | case5 reversed character rest noQuote noEnd noEscape induction =>
      have noBackslash : character ≠ '\\' := by
        intro same
        cases rest with
        | nil => exact noEnd same rfl
        | cons next rest => exact noEscape next rest same rfl
      rw [read_text_plain reversed rest noQuote noBackslash]
      refine induction.weaken (StopsIn.earlier (List.suffix_cons character rest)) ?_
      rintro ⟨read, left⟩ ⟨text, written, same, escapes, split⟩
      refine ⟨character :: text, _, ?_, .plain noQuote noBackslash escapes, ?_⟩
      · simpa using same
      · rw [split]
        rfl

theorem read_quoted_takes (input : List Char) :
    Leads (StopsIn input) (fun read => Takes [.quoted read.1.toList] input read.2)
      (readQuoted input) := by
  rw [readQuoted]
  split
  · rename_i rest opened
    have left := skip_blanks_suffix input
    rw [opened] at left
    refine (read_text_takes [] rest).weaken
      (StopsIn.earlier ((List.suffix_cons '"' rest).trans left)) ?_
    rintro ⟨read, left⟩ ⟨text, written, same, escapes, split⟩
    have read_eq : read.toList = text := by
      rw [show read = String.ofList text from same, String.toList_ofList]
    rw [read_eq]
    refine takes_token (.quoted escapes) ?_
    rw [opened, split, List.cons_append, List.append_assoc]
    rfl
  · exact skip_blanks_suffix input

theorem read_optional_text_takes (input : List Char) :
    Leads (StopsIn input) (fun read => Takes (textTokens read.1) input read.2)
      (readOptionalText input) := by
  rw [readOptionalText]
  split
  · rename_i rest marked
    have equals : Takes [.equals] input rest := takes_token .equals marked
    have quoted := read_quoted_takes rest
    cases read : readQuoted rest with
    | error stop =>
        rw [read] at quoted
        exact StopsIn.earlier equals.left stop quoted
    | ok found =>
        rw [read] at quoted
        exact equals.trans quoted
  · exact takes_blanks input

/-- Reading a node takes the tokens that the grammar derives from it. -/
def NodeTaken (input : List Char) (read : Outline × List Char) : Prop :=
  ∃ tokens, Derives read.1 tokens ∧ Takes tokens input read.2

def SiblingsTaken (input : List Char) (read : List Outline × List Char) : Prop :=
  ∃ tokens, DerivesSiblings read.1 tokens ∧ Takes (tokens ++ [.closing]) input read.2

theorem read_takes (bound : Nat) : ∀ input,
    Leads (StopsIn input) (NodeTaken input) (readNode bound input) ∧
      Leads (StopsIn input) (SiblingsTaken input) (readSiblings bound input) := by
  induction bound with
  | zero => exact fun input => ⟨List.suffix_refl input, List.suffix_refl input⟩
  | succ bound induction =>
      intro input
      constructor
      · rw [readNode]
        apply (read_rule_takes input).bind
        intro read ruleTaken
        obtain ⟨rule, afterRule⟩ := read
        obtain ⟨letters, same, ruled⟩ := ruleTaken
        have texts := (read_optional_text_takes afterRule).weaken
          (StopsIn.earlier ruled.left) (fun _ taken => taken)
        apply texts.bind
        intro read texted
        obtain ⟨text, afterText⟩ := read
        have front := ruled.trans texted
        dsimp only at same front ⊢
        subst same
        split
        · rename_i rest opened
          have opening := front.trans (takes_token .opening opened)
          split
          · rename_i rest closed
            have taken := opening.trans (takes_token .closing closed)
            refine ⟨_, .node .empty, ?_⟩
            simpa using taken
          · rename_i inside
            have blanks := opening.trans (takes_blanks rest)
            have below := (induction (skipBlanks rest)).2.weaken (StopsIn.earlier blanks.left)
              (fun _ taken => taken)
            apply below.bind
            intro read siblingsTaken
            obtain ⟨children, afterChildren⟩ := read
            obtain ⟨tokens, derives, taken⟩ := siblingsTaken
            refine ⟨_, .node (.siblings derives), ?_⟩
            simpa using blanks.trans taken
        · have blanks := front.trans (takes_blanks afterText)
          refine ⟨_, .node .absent, ?_⟩
          simpa using blanks
      · rw [readSiblings]
        apply (induction input).1.bind
        intro read nodeTaken
        obtain ⟨first, afterFirst⟩ := read
        obtain ⟨tokens, derives, taken⟩ := nodeTaken
        dsimp only at taken ⊢
        split
        · rename_i rest separated
          have comma := taken.trans (takes_token .comma separated)
          have later := (induction rest).2.weaken (StopsIn.earlier comma.left)
            (fun _ taken => taken)
          apply later.bind
          intro read siblingsTaken
          obtain ⟨others, afterOthers⟩ := read
          obtain ⟨behind, derivesOthers, takenOthers⟩ := siblingsTaken
          refine ⟨_, .more derives derivesOthers, ?_⟩
          simpa using comma.trans takenOthers
        · rename_i rest closed
          exact ⟨tokens, .last derives, taken.trans (takes_token .closing closed)⟩
        · exact (skip_blanks_suffix afterFirst).trans taken.left

-- What is derived is read

theorem Written.head_not_rule {tokens : List OutlineToken} {chars : List Char}
    (written : Written tokens chars) (noWord : ∀ letters, .word letters ∉ tokens.head?) :
    ∀ character ∈ chars.head?, isRuleChar character = false := by
  cases written with
  | done => exact nofun
  | blank isBlank _ =>
      intro character head
      cases head
      refine Bool.eq_false_iff.2 fun inRule => ?_
      rw [rule_char_not_blank inRule] at isBlank
      cases isBlank
  | token spells _ =>
      intro character head
      cases spells with
      | word => exact absurd rfl (noWord _)
      | _ => cases head; decide

theorem read_rule_finds {letters : List Char} {tokens : List OutlineToken} {chars : List Char}
    (written : Written (.word letters :: tokens) chars)
    (noWord : ∀ letters, .word letters ∉ tokens.head?) :
    ∃ rest, readRule chars = .ok (ruleOfWord letters, rest) ∧ Written tokens rest := by
  obtain ⟨spelling, rest, spells, skipped, later⟩ := written.skip_blanks_cons
  cases spells with
  | word nonempty inRule =>
      have stops := later.head_not_rule noWord
      have taken : (letters ++ rest).takeWhile isRuleChar = letters := by
        rw [List.takeWhile_append_of_pos inRule]
        cases rest with
        | nil => simp
        | cons character rest => simp [stops character rfl]
      have dropped : (letters ++ rest).dropWhile isRuleChar = rest := by
        rw [List.dropWhile_append_of_pos inRule]
        cases rest with
        | nil => rfl
        | cons character rest => simp [stops character rfl]
      refine ⟨rest, ?_, later⟩
      simp only [readRule, skipped, taken, dropped, List.isEmpty_iff, if_neg nonempty, ruleOfWord]

theorem Escapes.read_text {text written : List Char} (escapes : Escapes text written)
    (reversed rest : List Char) :
    readText reversed (written ++ '"' :: rest) =
      .ok (String.ofList (reversed.reverse ++ text), rest) := by
  induction escapes generalizing reversed with
  | nil => simp [readText]
  | plain noQuote noBackslash _ induction =>
      rw [List.cons_append, read_text_plain reversed _ noQuote noBackslash, induction]
      simp
  | taken _ induction =>
      rw [List.cons_append, List.cons_append, readText, induction]
      simp

theorem read_quoted_finds {text : List Char} {tokens : List OutlineToken} {chars : List Char}
    (written : Written (.quoted text :: tokens) chars) :
    ∃ rest, readQuoted chars = .ok (String.ofList text, rest) ∧ Written tokens rest := by
  obtain ⟨spelling, rest, spells, skipped, later⟩ := written.skip_blanks_cons
  cases spells with
  | @quoted _ inner escapes =>
      have read := escapes.read_text [] rest
      have opened : skipBlanks chars = '"' :: (inner ++ '"' :: rest) := by simpa using skipped
      refine ⟨rest, ?_, later⟩
      rw [readQuoted, opened]
      exact read

theorem Spells.head_not_equals {token : OutlineToken} {spelling : List Char}
    (spells : Spells token spelling) (different : token ≠ .equals) (rest : List Char) :
    ∀ later, spelling ++ rest ≠ '=' :: later := by
  intro later same
  cases spells with
  | word nonempty inRule =>
      obtain ⟨first, others, rfl⟩ := List.exists_cons_of_ne_nil nonempty
      have inWord := inRule first List.mem_cons_self
      rw [(List.cons.inj same).1] at inWord
      exact absurd inWord (by decide)
  | equals => exact different rfl
  | _ => exact absurd (List.cons.inj same).1 (by decide)

theorem read_optional_text_finds (text : Option String) {tokens : List OutlineToken}
    {chars : List Char} (written : Written (textTokens text ++ tokens) chars)
    (noEquals : .equals ∉ tokens.head?) :
    ∃ rest, readOptionalText chars = .ok (text, rest) ∧ Written tokens rest := by
  cases text with
  | some text =>
      obtain ⟨spelling, afterEquals, spells, skipped, marked⟩ := written.skip_blanks_cons
      cases spells
      obtain ⟨rest, read, later⟩ := read_quoted_finds marked
      refine ⟨rest, ?_, later⟩
      rw [readOptionalText, skipped]
      simp only [List.cons_append, List.nil_append, read, String.ofList_toList]
      rfl
  | none =>
      have unmarked : ∀ later, skipBlanks chars ≠ '=' :: later := by
        intro later same
        rcases written.skip_blanks with ⟨_, nothing⟩ | ⟨token, _, spelling, rest, split, spells, found, _⟩
        · rw [nothing] at same
          cases same
        · have different : token ≠ .equals := by
            rintro rfl
            rw [show tokens = _ from split] at noEquals
            exact noEquals rfl
          exact spells.head_not_equals different rest later (found.symm.trans same)
      refine ⟨skipBlanks chars, ?_, (written_iff_skipped _ _).1 written⟩
      rw [readOptionalText]
      split
      · rename_i later same
        exact absurd same (unmarked later)
      · rfl

def EndsTokens (tokens : List OutlineToken) : Prop :=
  ∀ token ∈ tokens.head?, token = .comma ∨ token = .closing

theorem DerivesNested.head {children : List Outline} {nested more : List OutlineToken}
    (below : DerivesNested children nested) (ends : EndsTokens more) :
    ∀ token ∈ (nested ++ more).head?, token = .opening ∨ token = .comma ∨ token = .closing := by
  cases below with
  | absent => exact fun token head => Or.inr (ends token head)
  | _ => exact fun token head => Or.inl (Option.some.inj head).symm

theorem Derives.starts_with_word {outline : Outline} {tokens : List OutlineToken}
    (derives : Derives outline tokens) : ∃ letters later, tokens = .word letters :: later := by
  cases derives
  exact ⟨_, _, rfl⟩

theorem DerivesSiblings.starts_with_word {siblings : List Outline} {tokens : List OutlineToken}
    (derives : DerivesSiblings siblings tokens) :
    ∃ letters later, tokens = .word letters :: later := by
  cases derives with
  | last derives => exact derives.starts_with_word
  | more derives _ =>
      obtain ⟨letters, later, rfl⟩ := derives.starts_with_word
      exact ⟨letters, _, rfl⟩

theorem Written.not_opened {more : List OutlineToken} {chars : List Char}
    (written : Written more chars) (ends : EndsTokens more) :
    ∀ later, skipBlanks chars ≠ '(' :: later := by
  intro later same
  rcases written.skip_blanks with ⟨_, nothing⟩ | ⟨token, _, spelling, rest, rfl, spells, found, _⟩
  · rw [nothing] at same
    cases same
  · rw [found] at same
    rcases ends token rfl with rfl | rfl
    · cases spells
      cases same
    · cases spells
      cases same

theorem DerivesSiblings.not_closed {siblings : List Outline} {tokens more : List OutlineToken}
    {chars : List Char} (derives : DerivesSiblings siblings tokens)
    (written : Written (tokens ++ more) chars) :
    ∃ character later, skipBlanks chars = character :: later ∧ character ≠ ')' := by
  obtain ⟨letters, others, rfl⟩ := derives.starts_with_word
  obtain ⟨spelling, rest, spells, found, _⟩ := written.skip_blanks_cons
  cases spells with
  | word nonempty inRule =>
      obtain ⟨first, others, rfl⟩ := List.exists_cons_of_ne_nil nonempty
      refine ⟨first, _, found, ?_⟩
      rintro rfl
      exact absurd (inRule ')' List.mem_cons_self) (by decide)

mutual

theorem Derives.read_node {outline : Outline} {tokens : List OutlineToken} :
    Derives outline tokens → ∀ (bound : Nat) (more : List OutlineToken) (chars : List Char),
      2 * tokens.length ≤ bound → EndsTokens more → Written (tokens ++ more) chars →
        ∃ rest, readNode bound chars = .ok (outline, rest) ∧ Written more rest
  | @Derives.node letters text children nested below, bound, more, chars, enough, ends, written => by
      rw [List.cons_append, List.append_assoc] at written
      have head := below.head ends
      have noWord : ∀ letters, .word letters ∉ (textTokens text ++ (nested ++ more)).head? := by
        intro letters first
        cases text with
        | some text => cases first
        | none => rcases head _ first with same | same | same <;> cases same
      have noEquals : .equals ∉ (nested ++ more).head? := by
        intro first
        rcases head _ first with same | same | same <;> cases same
      obtain ⟨afterRule, ruled, writtenText⟩ := read_rule_finds written noWord
      obtain ⟨afterText, texted, writtenNested⟩ := read_optional_text_finds text writtenText noEquals
      rw [List.length_cons, List.length_append] at enough
      obtain ⟨bound, rfl⟩ : ∃ fewer, bound = fewer + 1 := ⟨bound - 1, by omega⟩
      rw [readNode, ruled]
      simp only [bind, Except.bind, texted]
      cases below with
      | absent =>
          refine ⟨skipBlanks afterText, ?_, (written_iff_skipped _ _).1 writtenNested⟩
          split
          · rename_i rest opened
            exact absurd opened (writtenNested.not_opened ends rest)
          · rfl
      | empty =>
          obtain ⟨_, rest, spells, opened, writtenClosing⟩ := writtenNested.skip_blanks_cons
          cases spells
          obtain ⟨_, final, spells, closed, writtenMore⟩ := writtenClosing.skip_blanks_cons
          cases spells
          refine ⟨final, ?_, writtenMore⟩
          rw [opened]
          simp only [List.cons_append, List.nil_append, closed]
      | @siblings _ tokens derives =>
          rw [List.cons_append, List.append_assoc] at writtenNested
          obtain ⟨_, rest, spells, opened, writtenBelow⟩ := writtenNested.skip_blanks_cons
          cases spells
          obtain ⟨character, later, skipped, notClosed⟩ := derives.not_closed writtenBelow
          simp only [List.length_cons, List.length_append] at enough
          obtain ⟨final, read, writtenMore⟩ := derives.read_siblings bound more (skipBlanks rest)
            (by omega) ((written_iff_skipped _ _).1 writtenBelow)
          refine ⟨final, ?_, writtenMore⟩
          rw [skipped] at read
          rw [opened]
          simp [skipped, notClosed, read]

theorem DerivesSiblings.read_siblings {siblings : List Outline} {tokens : List OutlineToken} :
    DerivesSiblings siblings tokens →
      ∀ (bound : Nat) (more : List OutlineToken) (chars : List Char),
        2 * tokens.length + 1 ≤ bound → Written (tokens ++ .closing :: more) chars →
          ∃ rest, readSiblings bound chars = .ok (siblings, rest) ∧ Written more rest
  | .last derives, bound, more, chars, enough, written => by
      obtain ⟨bound, rfl⟩ : ∃ fewer, bound = fewer + 1 := ⟨bound - 1, by omega⟩
      have ends : EndsTokens (.closing :: more) := fun token head =>
        Or.inr (Option.some.inj head).symm
      obtain ⟨afterLast, read, closing⟩ := derives.read_node bound _ chars (by omega) ends written
      obtain ⟨_, rest, spells, closed, writtenMore⟩ := closing.skip_blanks_cons
      cases spells
      refine ⟨rest, ?_, writtenMore⟩
      rw [readSiblings, read]
      simp only [bind, Except.bind, closed, List.cons_append, List.nil_append]
  | @DerivesSiblings.more first others tokens later derives behind, bound, more, chars, enough,
      written => by
      rw [List.length_append, List.length_cons] at enough
      rw [List.append_assoc] at written
      obtain ⟨bound, rfl⟩ : ∃ fewer, bound = fewer + 1 := ⟨bound - 1, by omega⟩
      have ends : EndsTokens (.comma :: (later ++ .closing :: more)) := fun token head =>
        Or.inl (Option.some.inj head).symm
      obtain ⟨afterFirst, read, comma⟩ := derives.read_node bound _ chars (by omega) ends written
      obtain ⟨_, rest, spells, separated, writtenOthers⟩ := comma.skip_blanks_cons
      cases spells
      obtain ⟨final, readOthers, writtenMore⟩ := behind.read_siblings bound more rest (by omega)
        writtenOthers
      refine ⟨final, ?_, writtenMore⟩
      rw [readSiblings, read]
      simp only [bind, Except.bind, separated, List.cons_append, List.nil_append, readOthers]

end

-- Whole texts

/-- A text that is read spells a sentence; one that is not is left at a suffix. -/
theorem parse_ends (source : String) :
    (∃ outline, parse source = .ok outline ∧ outline.SpeltBy source) ∨
      ∃ fault rest, rest <:+ source.toList ∧
        parse source = .error ⟨byteSize source.toList - byteSize rest, fault⟩ := by
  have taken := (read_takes (2 * source.toList.length + 2) source.toList).1
  rw [parse]
  cases read : readNode (2 * source.toList.length + 2) source.toList with
  | error stop =>
      obtain ⟨fault, rest⟩ := stop
      rw [read] at taken
      exact Or.inr ⟨fault, rest, taken, rfl⟩
  | ok found =>
      obtain ⟨outline, rest⟩ := found
      rw [read] at taken
      obtain ⟨tokens, derives, taken⟩ := taken
      cases left : skipBlanks rest with
      | nil =>
          have spelt := taken.spelt [] ((written_iff_skipped [] rest).2 (left ▸ .done))
          rw [List.append_nil] at spelt
          exact Or.inl ⟨outline, by simp only [left], tokens, derives, spelt⟩
      | cons character later =>
          have inside := (skip_blanks_suffix rest).trans taken.left
          rw [left] at inside
          exact Or.inr ⟨.trailingInput, _, inside, by simp only [left]⟩

theorem SpeltBy.parse_eq {outline : Outline} {source : String} (spelt : outline.SpeltBy source) :
    parse source = .ok outline := by
  obtain ⟨tokens, derives, written⟩ := spelt
  have fewer := written.length_le
  rw [← List.append_nil tokens] at written
  obtain ⟨rest, read, nothing⟩ := derives.read_node (2 * source.toList.length + 2) []
    source.toList (by omega) nofun written
  simp only [parse, read, nothing.skip_blanks_nil]

theorem parse_iff_spelt {outline : Outline} {source : String} :
    parse source = .ok outline ↔ outline.SpeltBy source := by
  constructor
  · intro parsed
    rcases parse_ends source with ⟨found, read, spelt⟩ | ⟨_, _, _, refused⟩
    · rw [parsed] at read
      rw [Except.ok.inj read]
      exact spelt
    · rw [parsed] at refused
      cases refused
  · exact SpeltBy.parse_eq

theorem byte_size_eq (input : List Char) : byteSize input = (String.ofList input).utf8ByteSize := by
  rw [String.utf8ByteSize_ofList, byteSize, ← List.sum_eq_foldl]
  induction input with
  | nil => rfl
  | cons character rest induction =>
      rw [List.map_cons, List.sum_cons, induction, String.utf8Len_cons, Nat.add_comm]

theorem position_of_error {source : String} {error : OutlineError}
    (refused : parse source = .error error) :
    ∃ read left, source = read ++ left ∧ error.position = read.utf8ByteSize := by
  rcases parse_ends source with ⟨_, parsed, _⟩ | ⟨fault, rest, ⟨front, split⟩, same⟩
  · rw [parsed] at refused
    cases refused
  · rw [refused] at same
    cases same
    have whole : source = String.ofList front ++ String.ofList rest := by
      rw [← String.ofList_append, split, String.ofList_toList]
    refine ⟨String.ofList front, String.ofList rest, whole, ?_⟩
    dsimp only
    rw [byte_size_eq, byte_size_eq, String.ofList_toList, whole, String.utf8ByteSize_append]
    exact Nat.add_sub_cancel _ _

end Outline

end SyntaxGraph
