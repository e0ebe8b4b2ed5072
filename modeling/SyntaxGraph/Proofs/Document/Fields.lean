import Mathlib.Data.List.Nodup
import SyntaxGraph.Document.Reader
import SyntaxGraph.Document.Writer
import SyntaxGraph.Proofs.Json.RoundTrip

/-!
Reading back what was written field by field: lists from lists, records from the members that are
present, tagged records from their type and their fields, and maps from their entries.
-/

set_option autoImplicit false

namespace SyntaxGraph

variable {Value Source : Type}

theorem mapM_read {Item : Type} {read : Source → Option Value} {write : Item → Source}
    {value : Item → Value} (items : List Item)
    (reads : ∀ item ∈ items, read (write item) = some (value item)) :
    (items.map write).mapM read = some (items.map value) := by
  induction items with
  | nil => rfl
  | cons item items induction =>
      rw [List.map_cons, List.mapM_cons, reads item (by simp),
        induction fun other member => reads other (List.mem_cons_of_mem _ member)]
      rfl

theorem mapM_written {read : Source → Option Value} {write : Value → Source} (values : List Value)
    (readsBack : ∀ value ∈ values, read (write value) = some value) :
    (values.map write).mapM read = some values := by
  have same := mapM_read values readsBack
  rwa [List.map_id'] at same

theorem StringMap.insert_entry_last {key : String} {value : Value} {entries : List (String × Value)}
    (last : ∀ entry ∈ entries, entry.1 < key) :
    insertEntry key value entries = entries ++ [(key, value)] := by
  induction entries with
  | nil => rfl
  | cons first entries induction =>
      have less : first.1 < key := last first (by simp)
      rw [insertEntry, if_neg (String.lt_asymm less),
        if_neg (fun same : key = first.1 => String.lt_irrefl key (same ▸ less)),
        induction fun entry member => last entry (List.mem_cons_of_mem _ member)]
      rfl

theorem StringMap.eq_of_entries {left right : StringMap Value}
    (same : left.entries = right.entries) : left = right := by
  cases left
  cases right
  cases same
  rfl

theorem StringMap.of_list_entries (map : StringMap Value) : ofList map.entries = map := by
  have inserted : ∀ (before : StringMap Value) (later : List (String × Value)),
      (before.entries ++ later).Pairwise (fun left right => left.1 < right.1) →
        (later.foldl (fun map entry => map.insert entry.1 entry.2) before).entries =
          before.entries ++ later := by
    intro before later increasing
    induction later generalizing before with
    | nil => simp
    | cons entry later induction =>
        have grown : (before.insert entry.1 entry.2).entries = before.entries ++ [entry] :=
          insert_entry_last fun earlier member =>
            (List.pairwise_append.1 increasing).2.2 earlier member entry (by simp)
        rw [List.foldl_cons, induction, grown, List.append_assoc, List.singleton_append]
        rw [grown, List.append_assoc]
        exact increasing
  exact eq_of_entries (inserted .empty map.entries map.increasing)

namespace Json

theorem list_of_written {read : Json → Option Value} {write : Value → Json} (values : List Value)
    (readsBack : ∀ value ∈ values, read (write value) = some value) :
    listOf? read (.array (values.map write)) = some values :=
  mapM_written values readsBack

theorem list_of_strings (texts : List String) : listOf? text? (strings texts) = some texts :=
  list_of_written texts fun _ _ => rfl

def memberOf (name : String) (value : Option Json) : List (String × Json) :=
  (value.map fun value => (name, value)).toList

def present (fields : List (String × Option Json)) : List (String × Json) :=
  fields.flatMap fun field => memberOf field.1 field.2

theorem filter_member_same (name : String) (value : Option Json) :
    (memberOf name value).filter (fun entry => [name].contains entry.1) = memberOf name value := by
  cases value <;> simp [memberOf]

theorem filter_member_other {name other : String} (different : other ≠ name)
    (value : Option Json) :
    (memberOf other value).filter (fun entry => [name].contains entry.1) = [] := by
  cases value <;> simp [memberOf, different]

theorem name_of_mem_member {name : String} {value : Option Json} {entry : String × Json}
    (member : entry ∈ memberOf name value) : entry.1 = name := by
  cases value with
  | none => cases member
  | some value => rw [List.mem_singleton.1 member]

theorem present_textual {fields : List (String × Option Json)}
    (textual : ∀ field ∈ fields, (ofOption field.2).Textual) : MembersTextual (present fields) := by
  refine members_textual fun entry member => ?_
  obtain ⟨field, declared, isMember⟩ := List.mem_flatMap.1 member
  obtain ⟨value, given, rfl⟩ := Option.map_eq_some_iff.1 (Option.mem_toList.1 isMember)
  have text := textual field declared
  rwa [given] at text

theorem only_member_present {fields : List (String × Option Json)}
    (distinct : (fields.map Prod.fst).Nodup) {field : String × Option Json}
    (declared : field ∈ fields) : onlyMember (present fields) [field.1] = some field.2 := by
  have filtered : (present fields).filter (fun entry => [field.1].contains entry.1) =
      memberOf field.1 field.2 := by
    induction fields with
    | nil => cases declared
    | cons first fields induction =>
        obtain ⟨unlike, distinctLater⟩ := List.nodup_cons.1 distinct
        rw [present, List.flatMap_cons, List.filter_append]
        rcases List.mem_cons.1 declared with same | later
        · have others : (present fields).filter (fun entry => [field.1].contains entry.1) = [] := by
            refine List.filter_eq_nil_iff.2 fun entry member => ?_
            obtain ⟨other, otherDeclared, isMember⟩ := List.mem_flatMap.1 member
            have named : entry.1 = other.1 := name_of_mem_member isMember
            have different : entry.1 ≠ field.1 := fun clash =>
              unlike (same ▸ clash ▸ named ▸ List.mem_map_of_mem otherDeclared)
            simpa using different
          rw [← same, filter_member_same, ← present, others, List.append_nil]
        · have different : first.1 ≠ field.1 := fun clash =>
            unlike (clash ▸ List.mem_map_of_mem later)
          rw [filter_member_other different, List.nil_append]
          exact induction distinctLater later
  rw [onlyMember, filtered]
  cases field.2 <;> rfl

/-- A record is read from the members that are present. -/
theorem fields_present {form : RecordForm} {names : List (List String)}
    {fields : List (String × Option Json)} (named : fields.map (fun field => [field.1]) = names)
    (distinct : (fields.map Prod.fst).Nodup) :
    fields? form names (.object (present fields)) = some (fields.map Prod.snd) := by
  subst named
  have known : (present fields).any (fun entry =>
      !(fields.map fun field => [field.1]).any (·.contains entry.1)) = false := by
    refine List.any_eq_false.2 fun entry member => ?_
    obtain ⟨field, declared, isMember⟩ := List.mem_flatMap.1 member
    have named := name_of_mem_member isMember
    simp only [Bool.not_eq_true', Bool.not_eq_false, List.any_eq_true]
    exact ⟨[field.1], List.mem_map_of_mem declared, by simp [named]⟩
  rw [fields?, known, Bool.and_false, if_neg (by decide)]
  exact mapM_read fields fun field declared => only_member_present distinct declared

/-- A record that has no positional form is an object, and a closed one has no members but those
that are declared. -/
theorem declared_of_fields {names : List (List String)} {value : Json}
    {found : List (Option Json)} (read : fields? keyedForm names value = some found) :
    ∃ members, value = .object members ∧
      ∀ entry ∈ members, ∃ spellings ∈ names, entry.1 ∈ spellings := by
  cases value with
  | object members =>
      refine ⟨members, rfl, fun entry member => ?_⟩
      by_contra unknown
      have foreign : members.any (fun entry => !names.any (·.contains entry.1)) = true := by
        simp only [List.any_eq_true, Bool.not_eq_true', List.any_eq_false]
        refine ⟨entry, member, fun spellings declared spelled => unknown ⟨spellings, declared, ?_⟩⟩
        simpa using spelled
      rw [fields?, foreign] at read
      simp [keyedForm] at read
  | _ => simp [fields?, keyedForm, PositionalForm.admits] at read

theorem first_of_fields {form : RecordForm} {spellings : List String} {names : List (List String)}
    {members : List (String × Json)} {first : Option Json} {found : List (Option Json)}
    (read : fields? form (spellings :: names) (.object members) = some (first :: found)) :
    onlyMember members spellings = some first := by
  rw [fields?] at read
  split at read
  · cases read
  · rw [List.mapM_cons] at read
    obtain ⟨value, only, later⟩ := Option.bind_eq_some_iff.1 read
    obtain ⟨rest, -, same⟩ := Option.bind_eq_some_iff.1 later
    cases same
    exact only

theorem member_of_only {members : List (String × Json)} {spellings : List String} {value : Json}
    (found : onlyMember members spellings = some (some value)) :
    ∃ entry ∈ members, entry.1 ∈ spellings := by
  rw [onlyMember] at found
  split at found
  · cases found
  · rename_i entry filtered
    have member : entry ∈ members.filter fun entry => spellings.contains entry.1 := by
      rw [filtered]
      exact List.mem_singleton_self entry
    obtain ⟨inside, spelled⟩ := List.mem_filter.1 member
    exact ⟨entry, inside, by simpa using spelled⟩
  · cases found

end Json

open Json

/-- A tagged record is taken apart again, however types may be given. -/
theorem tagged_record_written {names : List String} {type : String} (listed : type ∈ names)
    (positions : TypePositions) {fields : List (String × Option Json)}
    (untagged : "type" ∉ fields.map Prod.fst) :
    taggedRecord? names positions (tagged type (present fields)) =
      some (type, .object (present fields)) := by
  have others : ∀ entry ∈ present fields, entry.1 ≠ "type" := by
    intro entry member isTag
    obtain ⟨field, declared, isMember⟩ := List.mem_flatMap.1 member
    rw [name_of_mem_member isMember] at isTag
    exact untagged (isTag ▸ List.mem_map_of_mem declared)
  have tags : (present fields).filter (fun entry => decide (entry.1 = "type")) = [] :=
    List.filter_eq_nil_iff.2 fun entry member => by simpa using others entry member
  have rest : (present fields).filter (fun entry => !decide (entry.1 = "type")) = present fields :=
    List.filter_eq_self.2 fun entry member => by simpa using others entry member
  simp [taggedRecord?, tagged, List.partition_eq_filter_filter, tags, rest, listed, text?,
    Function.comp_def]

end SyntaxGraph
