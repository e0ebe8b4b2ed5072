import SyntaxGraph.Json.Parser
import SyntaxGraph.Json.Printer

/-!
Reading compact text back. The characters of a value's text are given by recursion on the value;
a reader that meets them in front of anything returns the value and leaves the rest.
-/

set_option autoImplicit false

namespace SyntaxGraph

namespace Json

-- Strings

theorem hex_digit_char : ∀ digit, digit < 16 → hexDigit? (hexChar digit) = some digit := by
  decide

theorem read_escape_control {character : Char} (control : character.val < 0x20)
    (rest : List Char) :
    readEscape ('u' :: '0' :: '0' :: hexChar (character.toNat / 16) ::
      hexChar (character.toNat % 16) :: rest) = some (some character, rest) := by
  have small : character.toNat < 32 := control
  have high := hex_digit_char (character.toNat / 16) (by omega)
  have low := hex_digit_char (character.toNat % 16) (by omega)
  have digits : readUnit ('0' :: '0' :: hexChar (character.toNat / 16) ::
      hexChar (character.toNat % 16) :: rest) = some (character.toNat, rest) := by
    have zero : hexDigit? '0' = some 0 := by decide
    have whole : character.toNat / 16 * 16 + character.toNat % 16 = character.toNat := by omega
    simp [readUnit, zero, high, low, whole]
  have notLow : isLowHalf character.toNat = false := by
    simp only [isLowHalf, Bool.and_eq_false_iff, decide_eq_false_iff_not]
    omega
  have notHigh : isHighHalf character.toNat = false := by
    simp only [isHighHalf, Bool.and_eq_false_iff, decide_eq_false_iff_not]
    omega
  simp [readEscape, digits, notLow, notHigh]

theorem read_string_escaped (bound : Nat) (reversed : List Char) (character : Char)
    (rest : List Char) :
    readString (bound + 1) (some reversed) (escapeChar character ++ rest) =
      readString bound (some (character :: reversed)) rest := by
  by_cases named : character ∈ ['"', '\\', '\x08', '\x0c', '\n', '\r', '\t']
  · simp only [List.mem_cons, List.not_mem_nil, or_false] at named
    rcases named with same | same | same | same | same | same | same <;> subst same <;> rfl
  · simp only [List.mem_cons, List.not_mem_nil, or_false, not_or] at named
    obtain ⟨notQuote, notBackslash, notBack, notFeed, notLine, notReturn, notTab⟩ := named
    rw [escapeChar, if_neg notQuote, if_neg notBackslash, if_neg notBack, if_neg notFeed,
      if_neg notLine, if_neg notReturn, if_neg notTab]
    split
    · rename_i control
      simp [readString, read_escape_control control]
    · rename_i plain
      simp [readString, plain]

theorem read_string_text (bound : Nat) (reversed text rest : List Char)
    (enough : text.length < bound) :
    readString bound (some reversed) (text.flatMap escapeChar ++ '"' :: rest) =
      some (some (String.ofList (reversed.reverse ++ text)), rest) := by
  induction text generalizing bound reversed with
  | nil =>
      obtain ⟨bound, rfl⟩ : ∃ fewer, bound = fewer + 1 := ⟨bound - 1, by omega⟩
      simp [readString]
  | cons character text induction =>
      rw [List.length_cons] at enough
      obtain ⟨bound, rfl⟩ : ∃ fewer, bound = fewer + 1 := ⟨bound - 1, by omega⟩
      rw [List.flatMap_cons, List.append_assoc, read_string_escaped,
        induction bound (character :: reversed) (by omega)]
      simp

theorem length_le_escaped (text : List Char) : text.length ≤ (text.flatMap escapeChar).length := by
  induction text with
  | nil => exact Nat.le_refl _
  | cons character text induction =>
      have shown : 0 < (escapeChar character).length := by
        unfold escapeChar
        repeat' split
        all_goals simp
      simp only [List.flatMap_cons, List.length_append, List.length_cons]
      omega

def quoteChars (text : String) : List Char := '"' :: (text.toList.flatMap escapeChar ++ ['"'])

theorem read_quoted (text : String) (rest : List Char) :
    ∃ inside, quoteChars text ++ rest = '"' :: inside ∧
      readString (inside.length + 1) (some []) inside = some (some text, rest) := by
  refine ⟨text.toList.flatMap escapeChar ++ '"' :: rest, by simp [quoteChars], ?_⟩
  have inside := length_le_escaped text.toList
  rw [read_string_text _ [] text.toList rest (by rw [List.length_append]; omega)]
  simp

-- The text of a value

mutual

/-- No number and no broken string stands anywhere in the value. -/
def Textual : Json → Prop
  | null | bool _ | string _ => True
  | number _ | brokenString => False
  | array items => ItemsTextual items
  | object members => MembersTextual members

def ItemsTextual : List Json → Prop
  | [] => True
  | item :: rest => item.Textual ∧ ItemsTextual rest

def MembersTextual : List (String × Json) → Prop
  | [] => True
  | (_, value) :: rest => value.Textual ∧ MembersTextual rest

end

theorem items_textual {items : List Json} (textual : ∀ item ∈ items, item.Textual) :
    ItemsTextual items := by
  induction items with
  | nil => trivial
  | cons item items induction =>
      exact ⟨textual item (by simp),
        induction fun other member => textual other (List.mem_cons_of_mem _ member)⟩

theorem members_textual {members : List (String × Json)}
    (textual : ∀ entry ∈ members, entry.2.Textual) : MembersTextual members := by
  induction members with
  | nil => trivial
  | cons entry members induction =>
      exact ⟨textual entry (by simp),
        induction fun other member => textual other (List.mem_cons_of_mem _ member)⟩

theorem strings_textual (texts : List String) : (strings texts).Textual := by
  refine items_textual fun item member => ?_
  obtain ⟨text, -, rfl⟩ := List.mem_map.1 member
  trivial

def comma (first : Bool) : List Char := if first then [] else [',']

mutual

def compactChars : Json → List Char
  | null => ['n', 'u', 'l', 'l']
  | bool true => ['t', 'r', 'u', 'e']
  | bool false => ['f', 'a', 'l', 's', 'e']
  | number literal => literal.toList
  | string text => quoteChars text
  | brokenString => quoteChars ""
  | array items => '[' :: (itemsChars true items ++ [']'])
  | object members => '\x7b' :: (membersChars true members ++ ['\x7d'])

def itemsChars (first : Bool) : List Json → List Char
  | [] => []
  | item :: rest => comma first ++ compactChars item ++ itemsChars false rest

def membersChars (first : Bool) : List (String × Json) → List Char
  | [] => []
  | (name, value) :: rest =>
      comma first ++ quoteChars name ++ ':' :: compactChars value ++ membersChars false rest

end

theorem to_list_after_comma (output : String) (first : Bool) :
    (if first then output else output ++ ",").toList = output.toList ++ comma first := by
  cases first <;> simp [comma]

theorem to_list_quote (text : String) : (quote text).toList = quoteChars text :=
  String.toList_ofList

mutual

theorem append_compact_chars : ∀ (value : Json) (output : String),
    (appendCompact output value).toList = output.toList ++ compactChars value
  | null, _ => by simp [appendCompact, compactChars]
  | bool true, _ => by simp [appendCompact, compactChars]
  | bool false, _ => by simp [appendCompact, compactChars]
  | number _, _ => by simp [appendCompact, compactChars]
  | string _, _ => by simp [appendCompact, compactChars, to_list_quote]
  | brokenString, _ => by simp [appendCompact, compactChars, to_list_quote]
  | array items, _ => by simp [appendCompact, compactChars, append_items_chars items]
  | object members, _ => by simp [appendCompact, compactChars, append_members_chars members]

theorem append_items_chars : ∀ (items : List Json) (output : String) (first : Bool),
    (appendItems output first items).toList = output.toList ++ itemsChars first items
  | [], _, _ => by simp [appendItems, itemsChars]
  | item :: rest, _, _ => by
      rw [appendItems, append_items_chars rest, append_compact_chars item, to_list_after_comma,
        itemsChars]
      simp only [List.append_assoc]

theorem append_members_chars : ∀ (members : List (String × Json)) (output : String) (first : Bool),
    (appendMembers output first members).toList = output.toList ++ membersChars first members
  | [], _, _ => by simp [appendMembers, membersChars]
  | (name, value) :: rest, _, _ => by
      rw [appendMembers, append_members_chars rest, append_compact_chars value, membersChars]
      simp [to_list_after_comma, to_list_quote]

end

-- Reading the text of a value

theorem skip_blanks_cons {first : Char} (ink : isBlankChar first = false) (later : List Char) :
    skipBlanks (first :: later) = first :: later := by
  rw [skipBlanks, List.dropWhile_cons_of_neg (by simp [ink])]

/-- A value's text starts with neither a blank nor a closing bracket. -/
theorem compact_chars_start {value : Json} (textual : value.Textual) :
    ∃ first later, compactChars value = first :: later ∧ isBlankChar first = false ∧
      first ≠ ']' := by
  cases value with
  | null => exact ⟨'n', _, rfl, by decide, by decide⟩
  | bool value => cases value with
      | true => exact ⟨'t', _, rfl, by decide, by decide⟩
      | false => exact ⟨'f', _, rfl, by decide, by decide⟩
  | number | brokenString => exact textual.elim
  | string text => exact ⟨'"', _, by rw [compactChars, quoteChars], by decide, by decide⟩
  | array items => exact ⟨'[', _, by rw [compactChars], by decide, by decide⟩
  | object members => exact ⟨'\x7b', _, by rw [compactChars], by decide, by decide⟩

theorem read_value_quoted (bound : Nat) (text : String) (rest : List Char) :
    readValue (bound + 1) (quoteChars text ++ rest) = some (string text, rest) := by
  obtain ⟨inside, starts, read⟩ := read_quoted text rest
  rw [starts, readValue, skip_blanks_cons (by decide)]
  simp [read]

theorem read_value_array (bound : Nat) {first : Char} (ink : isBlankChar first = false)
    (goesOn : first ≠ ']') (later : List Char) :
    readValue (bound + 1) ('[' :: first :: later) = readItems bound [] (first :: later) := by
  rw [readValue, skip_blanks_cons (by decide)]
  simp [skip_blanks_cons ink, goesOn]

theorem read_value_object (bound : Nat) (later : List Char) :
    readValue (bound + 1) ('\x7b' :: '"' :: later) = readMembers bound [] ('"' :: later) := by
  have ink : skipBlanks ('"' :: later) = '"' :: later := skip_blanks_cons (by decide) later
  rw [readValue, skip_blanks_cons (by decide)]
  simp [ink]

theorem read_items_last {bound : Nat} {input rest : List Char} {item : Json}
    (read : readValue bound input = some (item, ']' :: rest)) (reversed : List Json) :
    readItems (bound + 1) reversed input = some (array (reversed.reverse ++ [item]), rest) := by
  rw [readItems, read]
  simp only [skip_blanks_cons (show isBlankChar ']' = false by decide), List.reverse_cons]

theorem read_items_more {bound : Nat} {input rest : List Char} {item : Json}
    (read : readValue bound input = some (item, ',' :: rest)) (reversed : List Json) :
    readItems (bound + 1) reversed input = readItems bound (item :: reversed) rest := by
  rw [readItems, read]
  simp only [skip_blanks_cons (show isBlankChar ',' = false by decide)]

theorem read_members_value {bound : Nat} {input after : List Char} {value : Json} {sign : Char}
    (read : readValue bound input = some (value, sign :: after))
    (ink : isBlankChar sign = false) (name : String) (reversed : List (String × Json)) :
    readMembers (bound + 1) reversed (quoteChars name ++ ':' :: input) =
      if sign = ',' then readMembers bound ((name, value) :: reversed) after
      else if sign = '\x7d' then some (object (reversed.reverse ++ [(name, value)]), after)
      else none := by
  obtain ⟨inside, starts, readName⟩ := read_quoted name (':' :: input)
  rw [starts, readMembers, skip_blanks_cons (by decide)]
  simp only [readName, skip_blanks_cons (show isBlankChar ':' = false by decide), read,
    skip_blanks_cons ink, List.reverse_cons]
  split
  · rename_i same
    cases same
    rfl
  · rename_i same
    cases same
    rfl
  · rename_i notComma notBrace
    rw [if_neg fun same => notComma after (by rw [same]),
      if_neg fun same => notBrace after (by rw [same])]

theorem items_chars_more (item next : Json) (later : List Json) :
    itemsChars true (item :: next :: later) =
      compactChars item ++ ',' :: itemsChars true (next :: later) := by
  simp [itemsChars, comma]

theorem members_chars_more (name : String) (value : Json) (next : String × Json)
    (later : List (String × Json)) :
    membersChars true ((name, value) :: next :: later) =
      quoteChars name ++
        ':' :: (compactChars value ++ ',' :: membersChars true (next :: later)) := by
  obtain ⟨nextName, nextValue⟩ := next
  simp [membersChars, comma]

-- Each call's bound is one below its caller's, and an item is entered by two calls, one for the
-- list and one for itself. Twice the characters are enough: brackets and commas are among them.
mutual

theorem read_value_written : ∀ (value : Json) (bound : Nat) (rest : List Char), value.Textual →
    2 * (compactChars value).length ≤ bound + 1 →
      readValue (bound + 1) (compactChars value ++ rest) = some (value, rest)
  | null, _, _, _, _ => rfl
  | bool true, _, _, _, _ => rfl
  | bool false, _, _, _, _ => rfl
  | string text, bound, rest, _, _ => by rw [compactChars, read_value_quoted]
  | number _, _, _, textual, _ => textual.elim
  | brokenString, _, _, textual, _ => textual.elim
  | array [], _, _, _, _ => rfl
  | array (item :: items), bound, rest, textual, enough => by
      simp only [compactChars, List.length_cons, List.length_append] at enough
      obtain ⟨bound, rfl⟩ : ∃ fewer, bound = fewer + 1 := ⟨bound - 1, by omega⟩
      have read := read_items_written (item :: items) [] bound rest (by simp) textual (by omega)
      obtain ⟨first, later, starts, ink, goesOn⟩ := compact_chars_start textual.1
      rw [itemsChars, starts] at read
      rw [compactChars, itemsChars, starts]
      simpa [comma, read_value_array _ ink goesOn] using read
  | object [], _, _, _, _ => rfl
  | object ((name, value) :: members), bound, rest, textual, enough => by
      simp only [compactChars, List.length_cons, List.length_append] at enough
      obtain ⟨bound, rfl⟩ : ∃ fewer, bound = fewer + 1 := ⟨bound - 1, by omega⟩
      have read := read_members_written ((name, value) :: members) [] bound rest (by simp) textual
        (by omega)
      rw [membersChars, quoteChars] at read
      rw [compactChars, membersChars, quoteChars]
      simpa [comma, read_value_object] using read

theorem read_items_written : ∀ (items reversed : List Json) (bound : Nat) (rest : List Char),
    items ≠ [] → ItemsTextual items → 2 * (itemsChars true items).length ≤ bound →
      readItems (bound + 1) reversed (itemsChars true items ++ ']' :: rest) =
        some (array (reversed.reverse ++ items), rest)
  | [], _, _, _, notEmpty, _, _ => absurd rfl notEmpty
  | [item], reversed, bound, rest, _, textual, enough => by
      have single : itemsChars true [item] = compactChars item := by simp [itemsChars, comma]
      rw [single] at enough ⊢
      obtain ⟨first, later, starts, -, -⟩ := compact_chars_start textual.1
      obtain ⟨bound, rfl⟩ : ∃ fewer, bound = fewer + 1 :=
        ⟨bound - 1, by rw [starts, List.length_cons] at enough; omega⟩
      exact read_items_last (read_value_written item bound _ textual.1 enough) reversed
  | item :: next :: later, reversed, bound, rest, _, textual, enough => by
      rw [items_chars_more, List.length_append, List.length_cons] at enough
      obtain ⟨bound, rfl⟩ : ∃ fewer, bound = fewer + 1 := ⟨bound - 1, by omega⟩
      rw [items_chars_more, List.append_assoc, List.cons_append,
        read_items_more (read_value_written item bound _ textual.1 (by omega)),
        read_items_written (next :: later) (item :: reversed) bound rest (by simp) textual.2
          (by omega)]
      simp

theorem read_members_written : ∀ (members reversed : List (String × Json)) (bound : Nat)
    (rest : List Char), members ≠ [] → MembersTextual members →
      2 * (membersChars true members).length ≤ bound →
        readMembers (bound + 1) reversed (membersChars true members ++ '\x7d' :: rest) =
          some (object (reversed.reverse ++ members), rest)
  | [], _, _, _, notEmpty, _, _ => absurd rfl notEmpty
  | [(name, value)], reversed, bound, rest, _, textual, enough => by
      have single : membersChars true [(name, value)] =
          quoteChars name ++ ':' :: compactChars value := by simp [membersChars, comma]
      rw [single, List.length_append, List.length_cons] at enough
      obtain ⟨bound, rfl⟩ : ∃ fewer, bound = fewer + 1 := ⟨bound - 1, by omega⟩
      rw [single, List.append_assoc, List.cons_append,
        read_members_value (read_value_written value bound _ textual.1 (by omega)) (by decide)]
      rfl
  | (name, value) :: next :: later, reversed, bound, rest, _, textual, enough => by
      rw [members_chars_more] at enough
      simp only [List.length_append, List.length_cons] at enough
      obtain ⟨bound, rfl⟩ : ∃ fewer, bound = fewer + 1 := ⟨bound - 1, by omega⟩
      rw [members_chars_more, List.append_assoc, List.cons_append, List.append_assoc,
        List.cons_append,
        read_members_value (read_value_written value bound _ textual.1 (by omega)) (by decide),
        if_pos rfl, read_members_written (next :: later) ((name, value) :: reversed) bound rest
          (by simp) textual.2 (by omega)]
      simp

end

/-- The text that a value without numbers is written as holds that value. -/
theorem parse_compact {value : Json} (textual : value.Textual) :
    parse? value.compact = some value := by
  have written : value.compact.toList = compactChars value := by
    rw [compact, append_compact_chars, String.toList_empty, List.nil_append]
  have read := read_value_written value (2 * (compactChars value).length + 1) [] textual (by omega)
  rw [List.append_nil] at read
  rw [parse?, written]
  simp only [read, skipBlanks, List.dropWhile_nil, List.isEmpty_nil, if_pos]

end Json

end SyntaxGraph
