import SyntaxGraph.Text.TopLevel

/-!
Which texts cannot be split. Quotes come first: what stands between a quote and the next one of its
kind counts for nothing, and a quote without such a partner hides the rest of the text. Of what is
left, a closing parenthesis is matched by an opening one before it if what stands between them is
balanced. A text is refused for a closing parenthesis without a match, for a quote that stays open,
or for an opening parenthesis without a match, whichever of these faults stands first in this list.
-/

set_option autoImplicit false

namespace SyntaxGraph.Text

/-- What of a text stands outside quotes, and the quote that is left open at its end. -/
inductive Outside : List Char → List Char → Option Char → Prop where
  | nil : Outside [] [] none
  | plain {character : Char} {rest visible : List Char} {unclosed : Option Char} :
      Nesting.isQuote character = false → Outside rest visible unclosed →
        Outside (character :: rest) (character :: visible) unclosed
  | quoted {quote : Char} {inside rest visible : List Char} {unclosed : Option Char} :
      Nesting.isQuote quote = true → quote ∉ inside → Outside rest visible unclosed →
        Outside (quote :: (inside ++ quote :: rest)) visible unclosed
  | unclosed {quote : Char} {rest : List Char} :
      Nesting.isQuote quote = true → quote ∉ rest → Outside (quote :: rest) [] (some quote)

/-- Every parenthesis has its match. -/
inductive Balanced : List Char → Prop where
  | nil : Balanced []
  | other {character : Char} {rest : List Char} :
      character ≠ '(' → character ≠ ')' → Balanced rest → Balanced (character :: rest)
  | nest {inner rest : List Char} :
      Balanced inner → Balanced rest → Balanced ('(' :: (inner ++ ')' :: rest))

/-- A closing parenthesis has no match before it. -/
def ClosesUnopened (visible : List Char) : Prop :=
  ∃ before after, visible = before ++ ')' :: after ∧
    ¬∃ front inner, before = front ++ '(' :: inner ∧ Balanced inner

/-- An opening parenthesis has no match behind it. -/
def OpensUnclosed (visible : List Char) : Prop :=
  ∃ before after, visible = before ++ '(' :: after ∧
    ¬∃ inner back, after = inner ++ ')' :: back ∧ Balanced inner

theorem Balanced.append {first second : List Char} (balanced : Balanced first)
    (behind : Balanced second) : Balanced (first ++ second) := by
  induction balanced with
  | nil => exact behind
  | other notOpen notClose _ induction => exact .other notOpen notClose induction
  | nest inner _ _ induction =>
      rw [List.cons_append, List.append_assoc, List.cons_append]
      exact .nest inner induction

def depthBehind : Nat → List Char → Option Nat
  | depth, [] => some depth
  | depth, character :: rest =>
      if character = '(' then depthBehind (depth + 1) rest
      else if character = ')' then
        match depth with
        | 0 => none
        | depth + 1 => depthBehind depth rest
      else depthBehind depth rest

theorem depth_behind_open (depth : Nat) (rest : List Char) :
    depthBehind depth ('(' :: rest) = depthBehind (depth + 1) rest := rfl

theorem depth_behind_close (depth : Nat) (rest : List Char) :
    depthBehind (depth + 1) (')' :: rest) = depthBehind depth rest := rfl

theorem depth_behind_other {character : Char} (notOpen : character ≠ '(')
    (notClose : character ≠ ')') (depth : Nat) (rest : List Char) :
    depthBehind depth (character :: rest) = depthBehind depth rest := by
  cases depth <;> simp [depthBehind, notOpen, notClose]

theorem parenthesis_cases (character : Char) :
    (character ≠ '(' ∧ character ≠ ')') ∨ character = '(' ∨ character = ')' := by
  by_cases isOpen : character = '('
  · exact Or.inr (Or.inl isOpen)
  · by_cases isClose : character = ')'
    · exact Or.inr (Or.inr isClose)
    · exact Or.inl ⟨isOpen, isClose⟩

theorem depth_behind_append (depth : Nat) (first second : List Char) :
    depthBehind depth (first ++ second) =
      (depthBehind depth first).bind fun behind => depthBehind behind second := by
  induction first generalizing depth with
  | nil => rfl
  | cons character rest induction =>
      rw [List.cons_append]
      rcases parenthesis_cases character with ⟨notOpen, notClose⟩ | rfl | rfl
      · rw [depth_behind_other notOpen notClose, depth_behind_other notOpen notClose, induction]
      · rw [depth_behind_open, depth_behind_open, induction]
      · cases depth with
        | zero => rfl
        | succ depth => rw [depth_behind_close, depth_behind_close, induction]

/-- Parentheses around a text that goes through make no difference within it. -/
theorem depth_behind_raised {depth behind : Nat} {text : List Char}
    (counted : depthBehind depth text = some behind) (raised : Nat) :
    depthBehind (depth + raised) text = some (behind + raised) := by
  induction text generalizing depth with
  | nil =>
      cases counted
      rfl
  | cons character rest induction =>
      rcases parenthesis_cases character with ⟨notOpen, notClose⟩ | rfl | rfl
      · rw [depth_behind_other notOpen notClose] at counted ⊢
        exact induction counted
      · rw [depth_behind_open] at counted ⊢
        rw [Nat.add_right_comm]
        exact induction counted
      · cases depth with
        | zero => cases counted
        | succ depth =>
            rw [depth_behind_close] at counted
            rw [Nat.add_right_comm, depth_behind_close]
            exact induction counted

theorem Balanced.depth_behind {text : List Char} (balanced : Balanced text) (depth : Nat) :
    depthBehind depth text = some depth := by
  induction balanced generalizing depth with
  | nil => rfl
  | other notOpen notClose _ induction =>
      rw [depth_behind_other notOpen notClose, induction]
  | nest _ _ inner rest =>
      rw [depth_behind_open, depth_behind_append, inner, Option.bind_some, depth_behind_close, rest]

/-- A text that leaves so many parentheses open falls into as many parts that end with one, each
balanced up to there, and a balanced part behind them. -/
inductive LeavesOpen : Nat → List Char → Prop where
  | balanced {text : List Char} : Balanced text → LeavesOpen 0 text
  | opened {depth : Nat} {front inner : List Char} :
      LeavesOpen depth front → Balanced inner → LeavesOpen (depth + 1) (front ++ '(' :: inner)

theorem LeavesOpen.append {depth : Nat} {text behind : List Char} (leaves : LeavesOpen depth text)
    (balanced : Balanced behind) : LeavesOpen depth (text ++ behind) := by
  cases leaves with
  | balanced whole => exact .balanced (whole.append balanced)
  | opened front inner =>
      rw [List.append_assoc, List.cons_append]
      exact .opened front (inner.append balanced)

theorem LeavesOpen.close {depth : Nat} {text : List Char} (leaves : LeavesOpen (depth + 1) text) :
    LeavesOpen depth (text ++ [')']) := by
  cases leaves with
  | @opened _ front inner before balanced =>
      have nested : Balanced ('(' :: (inner ++ [')'])) := .nest balanced .nil
      rw [List.append_assoc]
      exact before.append nested

/-- Counting on behind such a text shows which kind it comes to, and stops at the first closing
parenthesis that stands behind a balanced text. -/
theorem LeavesOpen.run {depth : Nat} {front : List Char} (leaves : LeavesOpen depth front)
    (text : List Char) :
    (∃ behind, depthBehind depth text = some behind ∧ LeavesOpen behind (front ++ text)) ∨
      depthBehind depth text = none ∧
        ∃ before after, front ++ text = before ++ ')' :: after ∧ Balanced before := by
  induction text generalizing depth front with
  | nil => exact Or.inl ⟨depth, rfl, by rwa [List.append_nil]⟩
  | cons character rest induction =>
      have moved : front ++ character :: rest = (front ++ [character]) ++ rest := by simp
      rw [moved]
      rcases parenthesis_cases character with ⟨notOpen, notClose⟩ | rfl | rfl
      · rw [depth_behind_other notOpen notClose]
        exact induction (leaves.append (.other notOpen notClose .nil))
      · rw [depth_behind_open]
        exact induction (.opened leaves .nil)
      · cases leaves with
        | balanced whole =>
            refine Or.inr ⟨rfl, front, rest, ?_, whole⟩
            rw [List.append_assoc, List.singleton_append]
        | opened before inner =>
            rw [depth_behind_close]
            exact induction (LeavesOpen.opened before inner).close

theorem leaves_open_of_depth {depth : Nat} {text : List Char}
    (counted : depthBehind 0 text = some depth) : LeavesOpen depth text := by
  rcases (LeavesOpen.balanced .nil).run text with ⟨behind, same, leaves⟩ | ⟨stopped, _⟩
  · rw [counted] at same
    cases same
    exact leaves
  · rw [counted] at stopped
    cases stopped

theorem close_behind_balanced {text : List Char} (stopped : depthBehind 0 text = none) :
    ∃ before after, text = before ++ ')' :: after ∧ Balanced before := by
  rcases (LeavesOpen.balanced .nil).run text with ⟨behind, same, _⟩ | ⟨_, found⟩
  · rw [stopped] at same
    cases same
  · exact found

theorem Balanced.not_open {text : List Char} (balanced : Balanced text) :
    ¬∃ front inner, text = front ++ '(' :: inner ∧ Balanced inner := by
  rintro ⟨front, inner, rfl, inside⟩
  have counted := balanced.depth_behind 0
  rw [depth_behind_append] at counted
  obtain ⟨depth, _, counted⟩ := Option.bind_eq_some_iff.1 counted
  rw [depth_behind_open, inside.depth_behind] at counted
  cases counted

theorem Balanced.not_closed {text : List Char} (balanced : Balanced text) :
    ¬∃ inner back, text = inner ++ ')' :: back ∧ Balanced inner := by
  rintro ⟨inner, back, rfl, inside⟩
  have counted := balanced.depth_behind 0
  rw [depth_behind_append, inside.depth_behind] at counted
  cases counted

theorem closes_unopened_iff {visible : List Char} :
    ClosesUnopened visible ↔ depthBehind 0 visible = none := by
  constructor
  · rintro ⟨before, after, rfl, unmatched⟩
    rw [depth_behind_append]
    cases counted : depthBehind 0 before with
    | none => rfl
    | some depth =>
        cases leaves_open_of_depth counted with
        | balanced => rfl
        | opened _ inner => exact absurd ⟨_, _, rfl, inner⟩ unmatched
  · intro stopped
    obtain ⟨before, after, split, balanced⟩ := close_behind_balanced stopped
    exact ⟨before, after, split, balanced.not_open⟩

theorem opens_unclosed_iff {visible : List Char} {depth : Nat}
    (counted : depthBehind 0 visible = some depth) : OpensUnclosed visible ↔ depth ≠ 0 := by
  constructor
  · rintro ⟨before, after, rfl, unmatched⟩ rfl
    rw [depth_behind_append] at counted
    obtain ⟨around, _, counted⟩ := Option.bind_eq_some_iff.1 counted
    rw [depth_behind_open] at counted
    apply unmatched
    apply close_behind_balanced
    -- If what follows went through by itself, the parenthesis would still be open behind it.
    cases alone : depthBehind 0 after with
    | none => rfl
    | some behind =>
        have raised := depth_behind_raised alone (around + 1)
        rw [Nat.zero_add, counted] at raised
        cases raised
  · intro isOpen
    cases leaves_open_of_depth counted with
    | balanced => exact absurd rfl isOpen
    | opened _ inner => exact ⟨_, _, rfl, inner.not_closed⟩

-- Quotes

/-- Every text has characters outside quotes; a text within a quote goes on behind its end. -/
theorem outside_total (text : List Char) :
    (∃ visible unclosed, Outside text visible unclosed) ∧
      ∀ quote ∈ text, ∃ inside rest visible unclosed,
        text = inside ++ quote :: rest ∧ quote ∉ inside ∧ Outside rest visible unclosed := by
  induction text with
  | nil => exact ⟨⟨[], none, .nil⟩, fun _ listed => absurd listed List.not_mem_nil⟩
  | cons character rest induction =>
      obtain ⟨⟨visible, unclosed, outside⟩, within⟩ := induction
      constructor
      · cases isQuote : Nesting.isQuote character with
        | false => exact ⟨_, _, .plain isQuote outside⟩
        | true =>
            by_cases again : character ∈ rest
            · obtain ⟨inside, later, visible, unclosed, rfl, first, behind⟩ :=
                within character again
              exact ⟨_, _, .quoted isQuote first behind⟩
            · exact ⟨_, _, .unclosed isQuote again⟩
      · intro quote listed
        by_cases same : quote = character
        · subst same
          exact ⟨[], rest, visible, unclosed, rfl, List.not_mem_nil, outside⟩
        · have later : quote ∈ rest := (List.mem_cons.1 listed).resolve_left same
          obtain ⟨inside, behind, visible, unclosed, rfl, first, outside⟩ := within quote later
          refine ⟨character :: inside, behind, visible, unclosed, rfl, ?_, outside⟩
          rw [List.mem_cons, not_or]
          exact ⟨same, first⟩

namespace Nesting

def scan (nesting : Nesting) (text : List Char) : Except SplitFault Nesting :=
  text.foldlM advance nesting

theorem scan_cons (nesting : Nesting) (character : Char) (rest : List Char) :
    nesting.scan (character :: rest) = nesting.advance character >>= fun behind => behind.scan rest :=
  List.foldlM_cons

theorem scan_append (nesting : Nesting) (first second : List Char) :
    nesting.scan (first ++ second) = nesting.scan first >>= fun behind => behind.scan second :=
  List.foldlM_append

theorem scan_inside {quote : Char} {text : List Char} (absent : quote ∉ text) (depth : Nat) :
    scan ⟨some quote, depth⟩ text = .ok ⟨some quote, depth⟩ := by
  induction text with
  | nil => rfl
  | cons character rest induction =>
      rw [List.mem_cons, not_or] at absent
      have stays : advance ⟨some quote, depth⟩ character = .ok ⟨some quote, depth⟩ := by
        simp [advance, Ne.symm absent.1]
      rw [scan_cons, stays]
      exact induction absent.2

theorem advance_quote {quote : Char} (isQuote : isQuote quote = true) (depth : Nat) :
    advance ⟨none, depth⟩ quote = .ok ⟨some quote, depth⟩ := by
  simp [advance, isQuote]

theorem scan_quoted {quote : Char} {inside : List Char} (isQuote : isQuote quote = true)
    (absent : quote ∉ inside) (depth : Nat) (rest : List Char) :
    scan ⟨none, depth⟩ (quote :: (inside ++ quote :: rest)) = scan ⟨none, depth⟩ rest := by
  have leaves : advance ⟨some quote, depth⟩ quote = .ok ⟨none, depth⟩ := by simp [advance]
  rw [scan_cons, advance_quote isQuote]
  change scan ⟨some quote, depth⟩ (inside ++ quote :: rest) = _
  rw [scan_append, scan_inside absent]
  change scan ⟨some quote, depth⟩ (quote :: rest) = _
  rw [scan_cons, leaves]
  rfl

end Nesting

theorem Outside.scan_eq {text visible : List Char} {unclosed : Option Char}
    (outside : Outside text visible unclosed) (depth : Nat) :
    Nesting.scan ⟨none, depth⟩ text =
      match depthBehind depth visible with
      | some behind => .ok ⟨unclosed, behind⟩
      | none => .error .unbalancedClose := by
  induction outside generalizing depth with
  | nil => rfl
  | @plain character rest visible unclosed noQuote _ induction =>
      rw [Nesting.scan_cons]
      rcases parenthesis_cases character with ⟨notOpen, notClose⟩ | rfl | rfl
      · rw [depth_behind_other notOpen notClose, ← induction]
        have stays : Nesting.advance ⟨none, depth⟩ character = .ok ⟨none, depth⟩ := by
          simp [Nesting.advance, noQuote, notOpen, notClose]
        rw [stays]
        rfl
      · rw [depth_behind_open, ← induction]
        rfl
      · cases depth with
        | zero => rfl
        | succ depth =>
            rw [depth_behind_close, ← induction]
            rfl
  | quoted isQuote absent _ induction => rw [Nesting.scan_quoted isQuote absent, induction]
  | unclosed isQuote absent =>
      rw [Nesting.scan_cons, Nesting.advance_quote isQuote]
      exact Nesting.scan_inside absent depth

end SyntaxGraph.Text
