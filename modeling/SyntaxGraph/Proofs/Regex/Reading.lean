import SyntaxGraph.Proofs.Regex.Tokens

/-!
Groups, repetitions and alternatives of a pattern that more text follows. Groups have to end within
the pattern, and so read alike in the longer text; it is only behind the last alternative that what
follows matters.
-/

set_option autoImplicit false

namespace SyntaxGraph

namespace Regex

open Scanner

variable {short long : Scanner}

-- Groups

theorem readFlags_append {dangling : Option Bool} {changes found : List FlagChange}
    {input rest : List Char} (read : readFlags dangling changes input = some (found, rest))
    (following : List Char) :
    readFlags dangling changes (input ++ following) = some (found, rest ++ following) ∧
      rest ≠ [] := by
  induction input generalizing dangling changes with
  | nil => cases read
  | cons character others ih =>
    simp only [readFlags, List.cons_append] at read ⊢
    split at read
    · next ends =>
      rw [if_pos ends]
      split at read
      · cases read
      · next complete =>
        cases read
        rw [if_neg complete]
        exact ⟨rfl, List.cons_ne_nil _ _⟩
    · next goes_on =>
      rw [if_neg goes_on]
      split at read
      · next hyphen =>
        rw [if_pos hyphen]
        split at read
        · cases read
        · next first =>
          rw [if_neg first]
          exact ih read
      · next letter =>
        rw [if_neg letter]
        cases flag : flagOf? character with
        | none => simp [flag] at read
        | some flag =>
          simp only [flag] at read ⊢
          split at read
          · cases read
          · next new =>
            rw [if_neg new]
            exact ih read

theorem readGroupName_append {input rest : List Char} {name : String}
    (read : readGroupName input = some (name, rest)) (following : List Char) :
    readGroupName (input ++ following) = some (name, rest ++ following) := by
  simp only [readGroupName] at read ⊢
  split at read
  · next first others mark beyond named left =>
    have within : (input.takeWhile (· ≠ '>')).length < input.length := by
      rw [← List.drop_eq_nil_iff.not.trans Nat.not_le, left]
      exact List.cons_ne_nil _ _
    rw [List.takeWhile_append, if_neg (Nat.ne_of_lt within),
      List.drop_append_of_le_length (Nat.le_of_lt within), left, named]
    rw [named] at read
    simp only [List.cons_append]
    split at read
    · next proper =>
      cases read
      rw [if_pos proper]
    · cases read
  · cases read

theorem persists_readOpening {character : Char} (peeked : short.peek = some character)
    (extended : Extended short long) : Persists (readOpening short) (readOpening long) := by
  have start := extended.advance peeked
  have look : isLookAround long.advance.rest = isLookAround short.advance.rest := by
    simp [isLookAround, isPrefixOf_extended start]
  simp only [readOpening, look]
  refine .ite (fun _ => .none _) fun _ => ?_
  have name_mark := (expect?_extended start (by decide : ')' ∉ "?P<".toList)).orElse
    (expect?_extended start (by decide : ')' ∉ "?<".toList))
  rcases name_mark with ⟨short_fails, long_fails⟩ | ⟨next, further, short_opens, long_opens, moved⟩
  · rw [short_fails, long_fails]
    rcases expect?_extended start (by decide : ')' ∉ "?".toList) with
      ⟨short_plain, long_plain⟩ | ⟨next, further, short_flagged, long_flagged, moved⟩
    · rw [short_plain, long_plain]
      exact .some _ start
    · rw [short_flagged, long_flagged]
      dsimp only
      cases read : readFlags none [] next.rest with
      | none => exact .none _
      | some found =>
        obtain ⟨changes, rest⟩ := found
        have long_rest := moved.rest.resolve_right fun spent => by simp [spent.1, readFlags] at read
        obtain ⟨long_read, left⟩ := readFlags_append read closing
        obtain ⟨mark, others, rfl⟩ := List.exists_cons_of_ne_nil left
        simp only [long_rest, long_read, Option.bind_eq_bind, Option.bind_some, List.cons_append,
          List.head?_cons, List.drop_succ_cons, List.drop_zero]
        have behind : Extended { short.advance with rest := others }
            { long.advance with rest := others ++ closing } :=
          ⟨start.freeSpacing, start.names, .inl rfl⟩
        refine .ite (fun _ => ?_) fun _ => .some _ behind
        exact .ite (fun _ => .none _) fun _ => .some _ behind
  · rw [short_opens, long_opens]
    dsimp only
    cases read : readGroupName next.rest with
    | none => exact .none _
    | some found =>
      obtain ⟨name, rest⟩ := found
      have long_rest := moved.rest.resolve_right fun spent => by
        simp [spent.1, readGroupName] at read
      simp only [long_rest, readGroupName_append read closing, Option.bind_eq_bind,
        Option.bind_some, start.names]
      refine .ite (fun _ => .none _) fun _ => .some _ ?_
      exact ⟨start.freeSpacing, rfl, .inl rfl⟩

-- Repetition

theorem persists_readCounts {character : Char} (peeked : short.peek = some character)
    (extended : Extended short long) : Persists (readCounts short) (readCounts long) := by
  simp only [readCounts]
  refine .bind (persists_readCount (extended.advance peeked)) fun least next further _ moved => ?_
  refine .bind_found (fun _ => moved.peek) fun mark marked => ?_
  dsimp only
  split
  · exact .some _ moved
  · have behind := moved.advance marked
    simp only [behind.peek_iff (by decide : '\x7d' ≠ ')')]
    refine .ite (fun _ => .some _ behind) fun _ => ?_
    refine .bind (persists_readCount behind) fun greatest next further _ moved => ?_
    simp only [moved.peek_iff (by decide : '\x7d' ≠ ')')]
    exact .ite (fun _ => .some _ moved) fun _ => .none _
  · exact .none _

theorem peek_of_readCounts {counts : Nat × Option Nat} {scanner next : Scanner}
    (read : readCounts scanner = some (counts, next)) : next.peek = some '\x7d' := by
  simp only [readCounts, Option.bind_eq_bind, Option.bind_eq_some_iff] at read
  obtain ⟨least, -, mark, marked, read⟩ := read
  split at read
  · cases read
    exact marked
  · split at read
    · next unbounded =>
      cases read
      exact unbounded
    · obtain ⟨greatest, -, read⟩ := Option.bind_eq_some_iff.mp read
      split at read
      · next ends =>
        cases read
        rw [Bool.and_eq_true, decide_eq_true_eq] at ends
        exact ends.1
      · cases read
  · cases read

theorem extended_dropLazy (extended : Extended short long) :
    Extended (if short.peek = some '?' then short.drop 1 else short)
      (if long.peek = some '?' then long.drop 1 else long) := by
  simp only [extended.peek_iff (by decide : '?' ≠ ')')]
  split
  · exact extended.drop_one ‹_›
  · exact extended

theorem persists_readRepetition (extended : Extended short long) :
    Persists (readRepetition short) (readRepetition long) := by
  simp only [readRepetition]
  refine .bind_found (fun _ => extended.peek) fun mark marked => ?_
  have behind := extended_dropLazy (extended.drop_one marked)
  split
  · exact .some _ behind
  · exact .some _ behind
  · exact .some _ behind
  · refine .bind (persists_readCounts marked extended) fun counts next further read moved => ?_
    exact .some _ (extended_dropLazy (moved.advance (peek_of_readCounts read)))

-- Alternatives

/-- How the longer text is read where the pattern by itself reads as a tree, up to its end or to
that of a group in it. Behind the pattern, the closing ends the group that the pattern stands in,
unless a comment swallows it. -/
def Closes (inside : Bool) (tree : RegexTree) (next : Scanner) :
    Option (RegexTree × Scanner) → Prop
  | none => inside = false
  | some (other, further) =>
      other = tree ∧ if inside then Extended next further else further.rest = ['$']

theorem Closes.of_inside {tree : RegexTree} {next : Scanner}
    {long : Option (RegexTree × Scanner)} (closes : Closes true tree next long) :
    ∃ further, long = some (tree, further) ∧ Extended next further := by
  rcases long with _ | ⟨other, further⟩
  · cases closes
  · obtain ⟨rfl, extended⟩ := closes
    exact ⟨further, rfl, extended⟩

theorem Closes.of_outside {tree other : RegexTree} {next further : Scanner}
    (closes : Closes false tree next (some (other, further))) :
    other = tree ∧ further.rest = ['$'] :=
  closes

/-- Alternatives that read by themselves read in the longer text, or a comment swallows the closing. The
longer text is read inside a group from the start: it is the closing that ends the pattern there. -/
theorem closes_readChoice {bound further : Nat} (le : bound ≤ further) (inside : Bool)
    (options parts : List RegexTree) {tree : RegexTree} {next : Scanner}
    (extended : Extended short long)
    (read : readChoice bound inside options parts short = some (tree, next)) :
    Closes inside tree next (readChoice further true options parts long) := by
  induction bound generalizing further inside options parts short long tree next with
  | zero => cases read
  | succ bound ih =>
    obtain ⟨further, rfl, lower⟩ := bound_of_succ_le le
    have start := extended.skipSpace
    simp only [readChoice] at read ⊢
    cases found : short.skipSpace.rest with
    | nil =>
      simp only [found] at read
      cases inside with
      | true => cases read
      | false =>
        cases read
        -- The closing is next in the longer text, or it is part of a comment and no end is left.
        rcases start.rest with more | ⟨-, spent⟩
        · rw [more, found]
          exact ⟨rfl, congrArg (List.drop 1) (more.trans (congrArg (· ++ closing) found))⟩
        · rw [spent]
          rfl
    | cons character others =>
      have peeked := peek_of_rest found
      rw [found] at read
      rw [start.rest_of_cons found]
      split at read
      case h_1 same => cases same
      case h_2 same =>
        -- Another option starts.
        cases same
        exact ih lower inside _ _ (start.drop_one peeked) read
      case h_3 same =>
        -- The parenthesis is the end of a group of the pattern itself.
        cases same
        cases inside with
        | true =>
          cases read
          exact ⟨rfl, start.drop_one peeked⟩
        | false => cases read
      case h_4 same =>
        cases same
        split at read
        · cases read
        · next changes beyond opened =>
          obtain ⟨behind, long_opened, moved⟩ := persists_readOpening peeked start _ _ opened
          rw [long_opened, start.freeSpacing]
          exact ih lower inside _ _ (moved.withSpacing _) read
        · next changes beyond opened =>
          obtain ⟨behind, long_opened, moved⟩ := persists_readOpening peeked start _ _ opened
          rw [long_opened, start.freeSpacing]
          dsimp only
          split at read
          · cases read
          · next inner after inner_read =>
            -- The group closes within the pattern, so that what follows it does not matter.
            obtain ⟨long_after, long_read, inner_moved⟩ :=
              (ih lower true _ _ (moved.withSpacing _) inner_read).of_inside
            rw [long_read]
            exact ih lower inside _ _ (inner_moved.withSpacing _) read
      case h_5 same =>
        cases same
        split at read
        · cases read
        · next inner negated beyond bracketed =>
          have shorter : ('[' :: others).length ≤ ('[' :: (others ++ closing)).length := by simp
          obtain ⟨behind, long_bracketed, moved⟩ :=
            (persists_class shorter).1 peeked start _ _ bracketed
          rw [long_bracketed]
          exact ih lower inside _ _ moved read
      case h_6 first tail no_choice no_end no_group no_class same =>
        cases same
        split
        case h_1 same => cases same
        case h_2 same => cases same; exact (no_choice rfl).elim
        case h_3 same => cases same; exact (no_end rfl).elim
        case h_4 same => cases same; exact (no_group rfl).elim
        case h_5 same => cases same; exact (no_class rfl).elim
        case h_6 same =>
          cases same
          split at read
          · next operator =>
            rw [if_pos operator]
            split at read
            · next part before =>
              split at read
              · next repeatable =>
                rw [if_pos repeatable]
                split at read
                · next least greatest beyond repeats =>
                  obtain ⟨behind, long_repeats, moved⟩ :=
                    persists_readRepetition start _ _ repeats
                  rw [long_repeats]
                  exact ih lower inside _ _ moved read
                · cases read
              · cases read
            · cases read
          · next no_operator =>
            rw [if_neg no_operator]
            split at read
            · next atom beyond atom_read =>
              obtain ⟨behind, long_atom, moved⟩ := persists_readAtom start _ _ atom_read
              rw [long_atom]
              exact ih lower inside _ _ moved read
            · cases read

end Regex

end SyntaxGraph
