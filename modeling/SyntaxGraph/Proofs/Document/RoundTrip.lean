import SyntaxGraph.Document.Format
import SyntaxGraph.Proofs.Document.Fields
import SyntaxGraph.Proofs.Json.RoundTrip
import SyntaxGraph.Regex.Compile

/-!
Documents that are written back. Every draft is read from the value that it is written as, in the
form in which it was, so writing back changes nothing about what a document stands for.
-/

set_option autoImplicit false

namespace SyntaxGraph

open Json

namespace PredicateDraft

def type : PredicateDraft → String
  | .equals negated _ _ => typeName negated "equals"
  | .endsWith negated _ _ => typeName negated "ends_with"
  | .contains negated _ _ => typeName negated "contains"
  | .fullMatch negated _ _ => typeName negated "full_match"
  | .anyOf _ _ => "any_of"
  | .isBound negated _ => typeName negated "exists"
  | .not _ => "not"

def fields : PredicateDraft → List (String × Option Json)
  | .equals _ left right => [("left", some (.string left)), ("right", some (.string right))]
  | .endsWith _ value suffix => [("value", some (.string value)), ("suffix", some (.string suffix))]
  | .contains _ value part => [("value", some (.string value)), ("substring", some (.string part))]
  | .fullMatch _ value regex => [("value", some (.string value)), ("regex", some (.string regex))]
  | .anyOf value options => [("value", some (.string value)), ("options", some (.strings options))]
  | .isBound _ capture => [("capture", some (.string capture))]
  | .not predicate => [("predicate", some predicate.toJson)]

theorem to_json_eq (draft : PredicateDraft) :
    draft.toJson = tagged draft.type (present draft.fields) := by
  cases draft <;> rfl

theorem type_listed (draft : PredicateDraft) : draft.type ∈ typeNames := by
  cases draft with
  | equals negated | endsWith negated | contains negated | fullMatch negated | isBound negated =>
      cases negated <;> simp [type, typeName, typeNames]
  | anyOf | not => simp [type, typeNames]

theorem fields_untagged (draft : PredicateDraft) : "type" ∉ draft.fields.map Prod.fst := by
  cases draft <;> simp [fields]

theorem fields_distinct (draft : PredicateDraft) : (draft.fields.map Prod.fst).Nodup := by
  cases draft <;> simp [fields]

theorem tag_of_written (draft : PredicateDraft) (positions : TypePositions) :
    taggedRecord? typeNames positions draft.toJson =
      some (draft.type, .object (present draft.fields)) := by
  rw [to_json_eq]
  exact tagged_record_written draft.type_listed positions draft.fields_untagged

theorem read_pair_written {first second : String} (different : first ≠ second)
    (left right : String) :
    readPair first second (.object (present
      [(first, some (.string left)), (second, some (.string right))])) = some (left, right) := by
  have read := @fields_present flexibleForm [[first], [second]]
    [(first, some (.string left)), (second, some (.string right))] rfl (by simpa using different)
  rw [readPair, read]
  rfl

theorem read_within_written (draft : PredicateDraft) (bound : Nat) (positions : TypePositions)
    (enough : draft.toJson.depth ≤ bound) :
    readWithin (bound + 1) positions draft.toJson = some draft := by
  induction draft generalizing bound positions with
  | equals negated left right =>
      have pair := read_pair_written (show "left" ≠ "right" by decide) left right
      rw [readWithin, tag_of_written]
      cases negated <;> simp [type, fields, typeName, pair]
  | endsWith negated value suffix =>
      have pair := read_pair_written (show "value" ≠ "suffix" by decide) value suffix
      rw [readWithin, tag_of_written]
      cases negated <;> simp [type, fields, typeName, pair]
  | contains negated value part =>
      have pair := read_pair_written (show "value" ≠ "substring" by decide) value part
      rw [readWithin, tag_of_written]
      cases negated <;> simp [type, fields, typeName, pair]
  | fullMatch negated value regex =>
      have pair := read_pair_written (show "value" ≠ "regex" by decide) value regex
      rw [readWithin, tag_of_written]
      cases negated <;> simp [type, fields, typeName, pair]
  | anyOf value options =>
      have read := @fields_present flexibleForm [["value"], ["options"]]
        (anyOf value options).fields rfl (fields_distinct _)
      rw [readWithin, tag_of_written]
      simp only [Option.bind_eq_bind, Option.bind_some, type, read]
      simp [fields, text?, list_of_strings]
  | isBound negated capture =>
      have read := @fields_present flexibleForm [["capture"]] (isBound negated capture).fields rfl
        (fields_distinct _)
      rw [readWithin, tag_of_written]
      cases negated <;> simp [type, typeName, readCapture, read] <;> rfl
  | not predicate induction =>
      have read := @fields_present flexibleForm [["predicate"]] (not predicate).fields rfl
        (fields_distinct _)
      have deeper : (not predicate).toJson.depth = predicate.toJson.depth + 1 := by
        simp [toJson, tagged, depth, membersDepth]
      obtain ⟨bound, rfl⟩ : ∃ fewer, bound = fewer + 1 := ⟨bound - 1, by omega⟩
      have inner := induction bound positions.inside (by omega)
      rw [readWithin, tag_of_written]
      simp only [Option.bind_eq_bind, Option.bind_some, type, read]
      simp [fields, inner]

theorem of_json_written (draft : PredicateDraft) (positions : TypePositions) :
    ofJson? positions draft.toJson = some draft :=
  draft.read_within_written draft.toJson.depth positions (Nat.le_refl _)

theorem to_json_textual (draft : PredicateDraft) : draft.toJson.Textual := by
  induction draft with
  | equals | endsWith | contains | fullMatch => exact ⟨trivial, trivial, trivial, trivial⟩
  | anyOf _ options => exact ⟨trivial, trivial, strings_textual options, trivial⟩
  | isBound => exact ⟨trivial, trivial, trivial⟩
  | not _ induction => exact ⟨trivial, induction, trivial⟩

theorem predicates_textual (predicates : List PredicateDraft) :
    ItemsTextual (predicates.map toJson) :=
  items_textual (List.forall_mem_map.2 fun predicate _ => predicate.to_json_textual)

end PredicateDraft

namespace PatternDraft

def readAlternatives (bound : Nat) (value : Json) : Option PatternDraft := do
  match ← fields? keyedForm [["alternatives"], ["optional"]] value with
  | [some options, optional] =>
      return .alternatives (← listOf? (readWithin bound) options)
        (← fieldD Json.bool? false optional)
  | _ => none

def readNode (bound : Nat) (value : Json) : Option PatternDraft := do
  match ← fields? keyedForm [["rule"], ["captures"], ["children"], ["not_children", "notChildren"],
      ["optional"]] value with
  | [some rule, captures, children, forbidden, optional] =>
      return .node (← rule.text?) (← fieldD (listOf? Json.text?) [] captures)
        (← fieldD (listOf? (readWithin bound)) [] children)
        (← fieldD (listOf? Json.text?) [] forbidden) (← fieldD Json.bool? false optional)
  | _ => none

theorem read_within_succ (bound : Nat) (value : Json) :
    readWithin (bound + 1) value = (readAlternatives bound value <|> readNode bound value) := rfl

theorem not_both_forms {bound : Nat} {value : Json} {alternatives node : PatternDraft}
    (asAlternatives : readAlternatives bound value = some alternatives)
    (asNode : readNode bound value = some node) : False := by
  obtain ⟨found, alternativeFields, isAlternatives⟩ := Option.bind_eq_some_iff.1 asAlternatives
  obtain ⟨_, nodeFields, _⟩ := Option.bind_eq_some_iff.1 asNode
  obtain ⟨members, rfl, known⟩ := declared_of_fields nodeFields
  split at isAlternatives
  · obtain ⟨entry, member, spelled⟩ := member_of_only (first_of_fields alternativeFields)
    obtain ⟨spellings, declared, spelledThere⟩ := known entry member
    rw [List.mem_singleton.1 spelled] at spelledThere
    simp only [List.mem_cons, List.not_mem_nil, or_false] at declared
    rcases declared with same | same | same | same | same <;> simp [same] at spelledThere
  · cases isAlternatives

theorem read_within_either_way (bound : Nat) (value : Json) :
    readWithin (bound + 1) value = (readNode bound value <|> readAlternatives bound value) := by
  rw [read_within_succ]
  cases asAlternatives : readAlternatives bound value with
  | none => cases readNode bound value <;> rfl
  | some alternatives =>
      cases asNode : readNode bound value with
      | none => rfl
      | some node => exact (not_both_forms asAlternatives asNode).elim

mutual

theorem read_within_written : ∀ (draft : PatternDraft) (bound : Nat), draft.toJson.depth ≤ bound →
    readWithin (bound + 1) draft.toJson = some draft
  | .node rule captures children forbidden optional, bound, enough => by
      have inner : itemsDepth (allToJson children) + 2 ≤ bound := by
        simp only [toJson, depth, membersDepth] at enough
        omega
      obtain ⟨bound, rfl⟩ : ∃ fewer, bound = fewer + 1 := ⟨bound - 1, by omega⟩
      have below : listOf? (readWithin (bound + 1)) (.array (allToJson children)) = some children :=
        all_read_within_written children bound (by omega)
      have read : fields? keyedForm [["rule"], ["captures"], ["children"],
          ["not_children", "notChildren"], ["optional"]]
          (toJson (.node rule captures children forbidden optional)) =
          some [some (.string rule), some (.strings captures), some (.array (allToJson children)),
            some (.strings forbidden), some (.bool optional)] := by
        simp [toJson, fields?, keyedForm, onlyMember]
      rw [read_within_either_way, readNode, read]
      simp [text?, fieldD, list_of_strings, below, bool?]
  | .alternatives options optional, bound, enough => by
      have inner : itemsDepth (allToJson options) + 2 ≤ bound := by
        simp only [toJson, depth, membersDepth] at enough
        omega
      obtain ⟨bound, rfl⟩ : ∃ fewer, bound = fewer + 1 := ⟨bound - 1, by omega⟩
      have below : listOf? (readWithin (bound + 1)) (.array (allToJson options)) = some options :=
        all_read_within_written options bound (by omega)
      have read : fields? keyedForm [["alternatives"], ["optional"]]
          (toJson (.alternatives options optional)) =
          some [some (.array (allToJson options)), some (.bool optional)] := by
        simp [toJson, fields?, keyedForm, onlyMember]
      rw [read_within_succ, readAlternatives, read]
      simp [fieldD, below, bool?]

theorem all_read_within_written : ∀ (drafts : List PatternDraft) (bound : Nat),
    itemsDepth (allToJson drafts) ≤ bound →
      (allToJson drafts).mapM (readWithin (bound + 1)) = some drafts
  | [], _, _ => rfl
  | draft :: rest, bound, enough => by
      rw [allToJson, itemsDepth] at enough
      rw [allToJson, List.mapM_cons, read_within_written draft bound (by omega),
        all_read_within_written rest bound (by omega)]
      rfl

end

theorem of_json_written (draft : PatternDraft) : ofJson? draft.toJson = some draft :=
  draft.read_within_written draft.toJson.depth (Nat.le_refl _)

mutual

theorem to_json_textual : ∀ draft : PatternDraft, draft.toJson.Textual
  | .node _ captures children forbidden _ =>
      ⟨trivial, strings_textual captures, all_to_json_textual children, strings_textual forbidden,
        trivial, trivial⟩
  | .alternatives options _ => ⟨all_to_json_textual options, trivial, trivial⟩

theorem all_to_json_textual : ∀ drafts : List PatternDraft, ItemsTextual (allToJson drafts)
  | [] => trivial
  | draft :: rest => ⟨to_json_textual draft, all_to_json_textual rest⟩

end

end PatternDraft

namespace ConverterDraft

def gatesField : List PredicateDraft → Option Json
  | [] => none
  | predicates => some (.array (predicates.map PredicateDraft.toJson))

def textField (text : Option String) : Option Json := text.map .string

def type : ConverterDraft → String
  | .node .. => "node"
  | .connection .. => "connection"
  | .validateIdentifier .. => "validate_identifier"
  | .recordImport .. => "import"
  | .nodeWithParent .. => "node_with_parent"
  | .argumentConnection .. => "argument_connection"

def fields : ConverterDraft → List (String × Option Json)
  | .node name kind capture predicates =>
      [("name", some (.string name)), ("kind", some (.string kind)),
       ("syntax_node", textField capture), ("predicates", gatesField predicates)]
  | .connection source target edge sourceKind targetKind position predicates =>
      [("from", some (.string source)), ("to", some (.string target)), ("edge", textField edge),
       ("from_kind", textField sourceKind), ("to_kind", textField targetKind),
       ("position", textField position), ("predicates", gatesField predicates)]
  | .validateIdentifier identifier predicates =>
      [("identifier", some (.string identifier)), ("predicates", gatesField predicates)]
  | .recordImport texts predicates =>
      [("fields", some (.object (texts.entries.map fun (name, text) => (name, .string text)))),
       ("predicates", gatesField predicates)]
  | .nodeWithParent name kind capture edge predicates =>
      [("name", some (.string name)), ("kind", some (.string kind)),
       ("syntax_node", textField capture), ("edge", textField edge),
       ("predicates", gatesField predicates)]
  | .argumentConnection name kind target targetKind edge predicates =>
      [("name", some (.string name)), ("kind", some (.string kind)),
       ("target", some (.string target)), ("target_kind", textField targetKind),
       ("edge", textField edge), ("predicates", gatesField predicates)]

theorem optional_member_eq (name : String) (text : Option String) :
    optionalMember name text = memberOf name (textField text) := by
  cases text <;> rfl

theorem predicates_member_eq (predicates : List PredicateDraft) :
    predicatesMember predicates = memberOf "predicates" (gatesField predicates) := by
  cases predicates <;> rfl

theorem to_json_eq (draft : ConverterDraft) :
    draft.toJson = tagged draft.type (present draft.fields) := by
  cases draft <;>
    simp [toJson, type, fields, present, optional_member_eq, predicates_member_eq, memberOf]

theorem type_listed (draft : ConverterDraft) : draft.type ∈ typeNames := by
  cases draft <;> simp [type, typeNames]

theorem fields_untagged (draft : ConverterDraft) : "type" ∉ draft.fields.map Prod.fst := by
  cases draft <;> simp [fields]

theorem fields_distinct (draft : ConverterDraft) : (draft.fields.map Prod.fst).Nodup := by
  cases draft <;> simp [fields]

theorem tag_of_written (draft : ConverterDraft) (positions : TypePositions) :
    taggedRecord? typeNames positions draft.toJson =
      some (draft.type, .object (present draft.fields)) := by
  rw [to_json_eq]
  exact tagged_record_written draft.type_listed positions draft.fields_untagged

theorem read_optional_written (text : Option String) : readOptional (textField text) = some text := by
  cases text <;> rfl

theorem read_predicates_written (predicates : List PredicateDraft) (positions : TypePositions) :
    readPredicates positions (gatesField predicates) = some predicates := by
  cases predicates with
  | nil => rfl
  | cons first others =>
      exact list_of_written (first :: others) fun predicate _ => predicate.of_json_written positions

theorem read_texts_written (texts : StringMap String) :
    readTexts (.object (texts.entries.map fun (name, text) => (name, .string text))) =
      some texts := by
  have entries : (texts.entries.map fun entry => (entry.1, Json.string entry.2)).mapM
      (fun entry => entry.2.text?.bind fun text => pure (entry.1, text)) = some texts.entries :=
    mapM_written texts.entries fun _ _ => rfl
  rw [readTexts]
  simp only [members?, Option.bind_eq_bind, Option.bind_some]
  rw [entries, Option.bind_some, StringMap.of_list_entries]
  rfl

theorem of_json_written (draft : ConverterDraft) (positions : TypePositions) :
    ofJson? positions draft.toJson = some draft := by
  have read := @fields_present flexibleForm _ draft.fields rfl draft.fields_distinct
  rw [ofJson?, tag_of_written]
  cases draft <;>
    simp only [fields, List.map_cons, List.map_nil] at read <;>
    simp [type, fields, read, text?, read_optional_written, read_predicates_written,
      read_texts_written]

theorem text_field_textual (text : Option String) : (ofOption (textField text)).Textual := by
  cases text <;> trivial

theorem gates_field_textual (predicates : List PredicateDraft) :
    (ofOption (gatesField predicates)).Textual := by
  cases predicates with
  | nil => trivial
  | cons first others => exact PredicateDraft.predicates_textual (first :: others)

theorem texts_textual (texts : StringMap String) :
    (Json.object (texts.entries.map fun (name, text) => (name, .string text))).Textual :=
  members_textual (List.forall_mem_map.2 fun _ _ => trivial)

theorem to_json_textual (draft : ConverterDraft) : draft.toJson.Textual := by
  rw [to_json_eq]
  refine ⟨trivial, present_textual ?_⟩
  have given (value : Json) : ofOption (some value) = value := rfl
  have text (text : String) : (Json.string text).Textual := trivial
  cases draft <;>
    simp [fields, given, text, text_field_textual, gates_field_textual, texts_textual]

end ConverterDraft

namespace EntryDraft

def fields (draft : EntryDraft) : List (String × Option Json) :=
  [("pattern", some draft.pattern.toJson),
   ("predicates", some (.array (draft.predicates.map PredicateDraft.toJson))),
   ("converters", some (.array (draft.converters.map ConverterDraft.toJson)))]

theorem to_json_eq (draft : EntryDraft) : draft.toJson = .object (present draft.fields) := rfl

theorem of_json_written (draft : EntryDraft) (positions : TypePositions) :
    ofJson? positions draft.toJson = some draft := by
  have predicates : ConverterDraft.readPredicates positions
      (some (.array (draft.predicates.map PredicateDraft.toJson))) = some draft.predicates :=
    list_of_written draft.predicates fun predicate _ => predicate.of_json_written positions
  have converters : listOf? (ConverterDraft.ofJson? positions)
      (.array (draft.converters.map ConverterDraft.toJson)) = some draft.converters :=
    list_of_written draft.converters fun converter _ => converter.of_json_written positions
  have read := @fields_present flexibleForm [["pattern"], ["predicates"], ["converters"]]
    draft.fields rfl (by simp [fields])
  rw [to_json_eq, ofJson?, read]
  simp [fields, fieldD, draft.pattern.of_json_written, predicates, converters]

theorem to_json_textual (draft : EntryDraft) : draft.toJson.Textual :=
  ⟨draft.pattern.to_json_textual, PredicateDraft.predicates_textual draft.predicates,
    items_textual (List.forall_mem_map.2 fun converter _ => converter.to_json_textual), trivial⟩

end EntryDraft

namespace DocumentDraft

theorem of_json_written (draft : DocumentDraft) (positions : TypePositions) :
    ofJson? positions draft.toJson = some draft := by
  cases draft with
  | list entries =>
      have read : (entries.map EntryDraft.toJson).mapM (EntryDraft.ofJson? positions) =
          some entries := mapM_written entries fun entry _ => entry.of_json_written positions
      rw [toJson, ofJson?, read]
      rfl
  | table entries =>
      have inner : listOf? (EntryDraft.ofJson? positions)
          (.array (entries.map EntryDraft.toJson)) = some entries :=
        list_of_written entries fun entry _ => entry.of_json_written positions
      have read := @fields_present keyedForm [["patterns"]]
        [("patterns", some (.array (entries.map EntryDraft.toJson)))] rfl (by simp)
      have written : toJson (.table entries) =
          .object (present [("patterns", some (.array (entries.map EntryDraft.toJson)))]) := rfl
      rw [written, ofJson?, read]
      · simp [inner]
      · simp

theorem parse_written (draft : DocumentDraft) :
    Json.parse? draft.toJson.compact = some draft.toJson := by
  apply parse_compact
  cases draft with
  | list entries => exact items_textual (List.forall_mem_map.2 fun entry _ => entry.to_json_textual)
  | table entries =>
      exact ⟨items_textual (List.forall_mem_map.2 fun entry _ => entry.to_json_textual), trivial⟩

/-- A text that holds a document as it is written is read as that document. -/
theorem read_of_holds {written : String} {draft : DocumentDraft}
    (holds : Json.parse? written = some draft.toJson)
    (shallow : draft.toJson.depth ≤ maxDocumentDepth) :
    DocumentFormat.json.parse? written = some draft := by
  simp only [DocumentFormat.parse?, readDocumentText, holds, Option.bind_eq_bind,
    Option.bind_some, if_pos shallow, draft.of_json_written]

theorem written_text_loads (engine : RegexEngine) {format : DocumentFormat} {source written : String}
    {draft : DocumentDraft} (read : format.parse? source = some draft)
    (holds : Json.parse? written = some draft.toJson)
    (shallow : draft.toJson.depth ≤ maxDocumentDepth) :
    DocumentFormat.json.parse? written = some draft ∧
      PatternSet.parse engine .json written = PatternSet.parse engine format source := by
  have readAgain := read_of_holds holds shallow
  exact ⟨readAgain, by rw [PatternSet.parse, PatternSet.parse, readAgain, read]⟩

/-- Documents come back from what they are written as, at every level and in the same form; the
texts before and after load alike; and no value has both forms of a pattern. -/
theorem document_round_trip :
    (∀ (draft : DocumentDraft) (positions : TypePositions),
      ofJson? positions draft.toJson = some draft ∧
        Json.parse? draft.toJson.compact = some draft.toJson) ∧
    (∀ (engine : RegexEngine) (format : DocumentFormat) (source written : String)
      (draft : DocumentDraft),
      format.parse? source = some draft → Json.parse? written = some draft.toJson →
        draft.toJson.depth ≤ maxDocumentDepth →
          DocumentFormat.json.parse? written = some draft ∧
            PatternSet.parse engine .json written = PatternSet.parse engine format source) ∧
    ∀ (bound : Nat) (value : Json),
      PatternDraft.readWithin (bound + 1) value =
        (PatternDraft.readAlternatives bound value <|> PatternDraft.readNode bound value) ∧
      PatternDraft.readWithin (bound + 1) value =
        (PatternDraft.readNode bound value <|> PatternDraft.readAlternatives bound value) ∧
      ¬((PatternDraft.readAlternatives bound value).isSome ∧
        (PatternDraft.readNode bound value).isSome) := by
  refine ⟨?_, ?_, ?_⟩
  · exact fun draft positions => ⟨draft.of_json_written positions, draft.parse_written⟩
  · exact fun engine format source written draft read holds shallow =>
      written_text_loads engine read holds shallow
  · intro bound value
    refine ⟨PatternDraft.read_within_succ bound value,
      PatternDraft.read_within_either_way bound value, ?_⟩
    rintro ⟨asAlternatives, asNode⟩
    obtain ⟨alternatives, readAlternatives⟩ := Option.isSome_iff_exists.1 asAlternatives
    obtain ⟨node, readNode⟩ := Option.isSome_iff_exists.1 asNode
    exact PatternDraft.not_both_forms readAlternatives readNode

/-- A document that can be read and is refused when it is loaded. -/
def emptyChoice : DocumentDraft := .list [⟨.alternatives [] false, [], []⟩]

theorem empty_choice_comes_back :
    let source := "[\x7b\"pattern\":\x7b\"alternatives\":[]\x7d\x7d]"
    let written := "[\x7b\"pattern\":\x7b\"alternatives\":[],\"optional\":false\x7d," ++
      "\"predicates\":[],\"converters\":[]\x7d]"
    DocumentFormat.json.parse? source = some emptyChoice ∧
      Json.parse? written = some emptyChoice.toJson ∧
      emptyChoice.toJson.depth ≤ maxDocumentDepth ∧
      DocumentFormat.json.parse? written = some emptyChoice ∧
      PatternSet.parse Regex.engine .json written = PatternSet.parse Regex.engine .json source ∧
      PatternSet.parse Regex.engine .json source = .error (.invalidEntry ⟨0, .noAlternatives⟩) := by
  intro source written
  let sparse : Json := .array [.object [("pattern", .object [("alternatives", .array [])])]]
  have compact : source = sparse.compact := rfl
  have parsed : Json.parse? source = some sparse := by
    rw [compact]
    exact parse_compact ⟨⟨⟨trivial, trivial⟩, trivial⟩, trivial⟩
  have read : DocumentFormat.json.parse? source = some emptyChoice := by
    rw [DocumentFormat.parse?, readDocumentText, parsed]
    rfl
  have same : written = emptyChoice.toJson.compact := rfl
  have holds : Json.parse? written = some emptyChoice.toJson := by
    rw [same]
    exact emptyChoice.parse_written
  have shallow : emptyChoice.toJson.depth ≤ maxDocumentDepth := by decide
  obtain ⟨again, alike⟩ := document_round_trip.2.1 Regex.engine .json source _ _ read holds shallow
  refine ⟨read, holds, shallow, again, alike, ?_⟩
  rw [PatternSet.parse, read]
  rfl

end DocumentDraft

end SyntaxGraph
