import SyntaxGraph.Document.Draft
import SyntaxGraph.Json.Parser
import SyntaxGraph.Json.Record

/-!
Reading drafts from JSON values. Members that a form does not know, repeated members and values of
the wrong shape make a document unreadable. A pattern has no positional form; entries, predicates
and converters have one.
-/

set_option autoImplicit false

namespace SyntaxGraph

open Json (RecordForm fields? listOf? fieldD optionalField?)

/-- Nesting of arrays and objects that a document may reach. -/
def maxDocumentDepth : Nat := 127

def keyedForm : RecordForm := ⟨true, .refused⟩

def flexibleForm : RecordForm := ⟨true, .partly⟩

namespace PatternDraft

def readWithin : Nat → Json → Option PatternDraft
  | 0, _ => none
  | bound + 1, value =>
      let patterns := listOf? (readWithin bound)
      let flag (field : Option Json) : Option Bool := fieldD Json.bool? false field
      let texts (field : Option Json) : Option (List String) := fieldD (listOf? Json.text?) [] field
      let alternatives : Option PatternDraft := do
        match ← fields? keyedForm [["alternatives"], ["optional"]] value with
        | [some options, optional] => return .alternatives (← patterns options) (← flag optional)
        | _ => none
      let node : Option PatternDraft := do
        match ← fields? keyedForm [["rule"], ["captures"], ["children"],
            ["not_children", "notChildren"], ["optional"]] value with
        | [some rule, captures, children, forbidden, optional] =>
            return .node (← rule.text?) (← texts captures) (← fieldD patterns [] children)
              (← texts forbidden) (← flag optional)
        | _ => none
      alternatives <|> node

def ofJson? (value : Json) : Option PatternDraft := readWithin (value.depth + 1) value

end PatternDraft

/-- Which tagged records may give their type as a position in the list of type names: none, those
inside another value that is read, or all. -/
inductive TypePositions where
  | never
  | nested
  | always
deriving DecidableEq, Repr

namespace TypePositions

def allowed (positions : TypePositions) : Bool := positions = .always

def inside : TypePositions → TypePositions
  | .never => .never
  | .nested | .always => .always

end TypePositions

def taggedRecord? (names : List String) (positions : TypePositions) (value : Json) :
    Option (String × Json) := do
  let name (tag : Json) : Option String :=
    match tag.text? with
    | some text => if names.contains text then some text else none
    | none => if positions.allowed then do names[(← tag.natural?)]? else none
  match value with
  | .object members =>
      match members.partition fun entry => entry.1 = "type" with
      | ([tag], rest) => return (← name tag.2, .object rest)
      | _ => none
  | .array (tag :: rest) => return (← name tag, .array rest)
  | _ => none

namespace PredicateDraft

def typeNames : List String :=
  ["equals", "not_equals", "ends_with", "not_ends_with", "contains", "not_contains", "full_match",
   "not_full_match", "any_of", "exists", "not_exists", "not"]

def readPair (first second : String) (fields : Json) : Option (String × String) := do
  match ← fields? flexibleForm [[first], [second]] fields with
  | [some left, some right] => return (← left.text?, ← right.text?)
  | _ => none

def readCapture (fields : Json) : Option String := do
  match ← fields? flexibleForm [["capture"]] fields with
  | [some capture] => capture.text?
  | _ => none

def readWithin : Nat → TypePositions → Json → Option PredicateDraft
  | 0, _, _ => none
  | bound + 1, positions, value => do
      let (type, fields) ← taggedRecord? typeNames positions value
      match type with
      | "equals" => (readPair "left" "right" fields).map fun (left, right) => equals false left right
      | "not_equals" =>
          (readPair "left" "right" fields).map fun (left, right) => equals true left right
      | "ends_with" =>
          (readPair "value" "suffix" fields).map fun (value, suffix) => endsWith false value suffix
      | "not_ends_with" =>
          (readPair "value" "suffix" fields).map fun (value, suffix) => endsWith true value suffix
      | "contains" =>
          (readPair "value" "substring" fields).map fun (value, part) => contains false value part
      | "not_contains" =>
          (readPair "value" "substring" fields).map fun (value, part) => contains true value part
      | "full_match" =>
          (readPair "value" "regex" fields).map fun (value, regex) => fullMatch false value regex
      | "not_full_match" =>
          (readPair "value" "regex" fields).map fun (value, regex) => fullMatch true value regex
      | "any_of" =>
          match ← fields? flexibleForm [["value"], ["options"]] fields with
          | [some value, some options] =>
              return anyOf (← value.text?) (← listOf? Json.text? options)
          | _ => none
      | "exists" => (readCapture fields).map (isBound false)
      | "not_exists" => (readCapture fields).map (isBound true)
      | "not" =>
          match ← fields? flexibleForm [["predicate"]] fields with
          | [some predicate] => (readWithin bound positions.inside predicate).map not
          | _ => none
      | _ => none

def ofJson? (positions : TypePositions) (value : Json) : Option PredicateDraft :=
  readWithin (value.depth + 1) positions value

end PredicateDraft

namespace ConverterDraft

def typeNames : List String :=
  ["node", "connection", "validate_identifier", "import", "node_with_parent",
   "argument_connection"]

def readPredicates (positions : TypePositions) (field : Option Json) :
    Option (List PredicateDraft) :=
  fieldD (listOf? (PredicateDraft.ofJson? positions)) [] field

def readOptional (field : Option Json) : Option (Option String) := optionalField? Json.text? field

/-- Texts under names; of two members with one name the later one counts. -/
def readTexts (value : Json) : Option (StringMap String) := do
  let entries ← (← value.members?).mapM fun (name, text) => do return (name, ← text.text?)
  return StringMap.ofList entries

def ofJson? (positions : TypePositions) (value : Json) : Option ConverterDraft := do
  let (type, fields) ← taggedRecord? typeNames positions value
  let readGates := readPredicates positions.inside
  match type with
  | "node" =>
      match ← fields? flexibleForm [["name"], ["kind"], ["syntax_node"], ["predicates"]] fields with
      | [some name, some kind, capture, predicates] =>
          return node (← name.text?) (← kind.text?) (← readOptional capture)
            (← readGates predicates)
      | _ => none
  | "connection" =>
      match ← fields? flexibleForm [["from"], ["to"], ["edge"], ["from_kind"], ["to_kind"],
          ["position"], ["predicates"]] fields with
      | [some source, some target, edge, sourceKind, targetKind, position, predicates] =>
          return connection (← source.text?) (← target.text?) (← readOptional edge)
            (← readOptional sourceKind) (← readOptional targetKind) (← readOptional position)
            (← readGates predicates)
      | _ => none
  | "validate_identifier" =>
      match ← fields? flexibleForm [["identifier"], ["predicates"]] fields with
      | [some identifier, predicates] =>
          return validateIdentifier (← identifier.text?) (← readGates predicates)
      | _ => none
  | "import" =>
      match ← fields? flexibleForm [["fields"], ["predicates"]] fields with
      | [some texts, predicates] =>
          return recordImport (← readTexts texts) (← readGates predicates)
      | _ => none
  | "node_with_parent" =>
      match ← fields? flexibleForm [["name"], ["kind"], ["syntax_node"], ["edge"],
          ["predicates"]] fields with
      | [some name, some kind, capture, edge, predicates] =>
          return nodeWithParent (← name.text?) (← kind.text?) (← readOptional capture)
            (← readOptional edge) (← readGates predicates)
      | _ => none
  | "argument_connection" =>
      match ← fields? flexibleForm [["name"], ["kind"], ["target"], ["target_kind"], ["edge"],
          ["predicates"]] fields with
      | [some name, some kind, some target, targetKind, edge, predicates] =>
          return argumentConnection (← name.text?) (← kind.text?) (← target.text?)
            (← readOptional targetKind) (← readOptional edge) (← readGates predicates)
      | _ => none
  | _ => none

end ConverterDraft

def EntryDraft.ofJson? (positions : TypePositions) (value : Json) : Option EntryDraft := do
  match ← fields? flexibleForm [["pattern"], ["predicates"], ["converters"]] value with
  | [some pattern, predicates, converters] =>
      return ⟨← PatternDraft.ofJson? pattern, ← ConverterDraft.readPredicates positions predicates,
        ← fieldD (listOf? (ConverterDraft.ofJson? positions)) [] converters⟩
  | _ => none

def DocumentDraft.ofJson? (positions : TypePositions) : Json → Option DocumentDraft
  | .array items => (items.mapM (EntryDraft.ofJson? positions)).map .list
  | value => do
      match ← fields? keyedForm [["patterns"]] value with
      | [some entries] => return .table (← listOf? (EntryDraft.ofJson? positions) entries)
      | _ => none

def readDocumentText {Value : Type} (read : Json → Option Value) (source : String) :
    Option Value := do
  let value ← Json.parse? source
  if value.depth ≤ maxDocumentDepth then read value else none

end SyntaxGraph
