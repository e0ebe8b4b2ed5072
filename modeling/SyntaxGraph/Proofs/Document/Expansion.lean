import SyntaxGraph.Engine.Execute
import SyntaxGraph.Proofs.Document.RoundTrip
import SyntaxGraph.Proofs.Outcome

/-!
Macro converters written out in full. A macro can be loaded exactly if both converters that it is
short for can, and then it is loaded as these two. So a document may have any of its macros written
out: it is loaded as the same patterns, or it is refused for the same entry. Only which of several
faults in that entry is reported may change, since a macro is checked in an order of its own.
-/

set_option autoImplicit false

namespace SyntaxGraph

-- The default edge types by their names

theorem Text.lower_name_eq_iff {left right : String} :
    lowerName left = lowerName right ↔
      left.toList.map lowerToAscii = right.toList.map lowerToAscii := by
  rw [lowerName, lowerName, ← String.toList_inj, String.toList_map, String.toList_map]

theorem EdgeType.parse_eq (text : String) :
    parse? text = all.find? fun type => type.name.toList.map Text.lowerToAscii =
      (Text.trimChars text.toList).map Text.lowerToAscii := by
  simp only [parse?, ofName?, Text.lower_name_eq_iff, Text.trim, String.toList_ofList]

theorem EdgeType.parse_defines : parse? "defines" = some .defines := by
  rw [parse_eq]
  decide

theorem EdgeType.parse_uses : parse? "uses" = some .uses := by
  rw [parse_eq]
  decide

namespace ConverterDraft

/-- The converters that a macro is short for, with its default edge written out. Any other converter
stands for itself. -/
def expansion : ConverterDraft → List ConverterDraft
  | .nodeWithParent name kind capture edge predicates =>
      [.node name kind capture predicates,
        .connection "@parent" name (some (edge.getD "defines")) none (some kind) none predicates]
  | .argumentConnection name kind target targetKind edge predicates =>
      [.node name kind none predicates,
        .connection name target (some (edge.getD "uses")) (some kind) targetKind none predicates]
  | draft => [draft]

-- One macro

variable (engine : RegexEngine)

def gated (predicates : List PredicateDraft) (action : Except EntryFault Action) :
    Option Converter :=
  action.toOption.bind fun action =>
    (checkPredicates engine predicates).toOption.map fun gates => ⟨action, gates⟩

theorem check_action (predicates : List PredicateDraft) (action : Except EntryFault Action) :
    (do
      let action ← action
      return [⟨action, ← checkPredicates engine predicates⟩] : Except EntryFault (List Converter)).toOption =
      (gated engine predicates action).map fun converter => [converter] := by
  cases action with
  | error fault => rfl
  | ok action =>
      cases gates : checkPredicates engine predicates with
      | error fault =>
          simp only [gated, gates]
          rfl
      | ok passed =>
          simp only [gated, gates]
          rfl

/-- Whether two halves and their common predicates can be loaded is no matter of order. -/
theorem check_halves (predicates : List PredicateDraft) (first second : Except EntryFault Action) :
    (do
      let gates ← checkPredicates engine predicates
      let definition ← first
      let link ← second
      return [⟨definition, gates⟩, ⟨link, gates⟩] : Except EntryFault (List Converter)).toOption =
      (gated engine predicates first).bind fun definition =>
        (gated engine predicates second).map fun link => [definition, link] := by
  cases gates : checkPredicates engine predicates with
  | error fault =>
      simp only [gated, gates]
      cases first with
      | error _ => rfl
      | ok _ => rfl
  | ok passed =>
      simp only [gated, gates]
      cases first with
      | error _ => rfl
      | ok _ =>
          cases second with
          | error _ => rfl
          | ok _ => rfl

theorem check_edge_written (edge : Option String) {fallback : EdgeType} (other : EdgeType)
    {name : String} (named : EdgeType.parse? name = some fallback) :
    checkEdge (some (edge.getD name)) other = checkEdge edge fallback := by
  cases edge with
  | some written => rfl
  | none => simp only [checkEdge, Option.getD_none, named]

theorem check_connection_written (source target : String) (edge : Option String)
    {fallback : EdgeType} (other : EdgeType) (sourceKind targetKind position : Option String)
    {name : String} (named : EdgeType.parse? name = some fallback) :
    checkConnection source target (some (edge.getD name)) other sourceKind targetKind position =
      checkConnection source target edge fallback sourceKind targetKind position := by
  simp only [checkConnection, check_edge_written edge other named]

theorem check_node (name kind : String) (capture : Option String)
    (predicates : List PredicateDraft) :
    ((node name kind capture predicates).check engine).toOption =
      (gated engine predicates (checkNode name kind capture)).map fun converter => [converter] :=
  check_action engine predicates _

theorem check_connection (source target : String)
    (edge sourceKind targetKind position : Option String) (predicates : List PredicateDraft) :
    ((connection source target edge sourceKind targetKind position predicates).check engine).toOption =
      (gated engine predicates (checkConnection source target edge .uses sourceKind targetKind
        position)).map fun converter => [converter] :=
  check_action engine predicates _

theorem check_node_with_parent (name kind : String) (capture edge : Option String)
    (predicates : List PredicateDraft) :
    ((nodeWithParent name kind capture edge predicates).check engine).toOption =
      (gated engine predicates (checkNode name kind capture)).bind fun definition =>
        (gated engine predicates (checkConnection "@parent" name (some (edge.getD "defines")) .uses none
          (some kind) none)).map fun link => [definition, link] := by
  rw [check_connection_written "@parent" name edge .uses none (some kind) none
    EdgeType.parse_defines]
  exact check_halves engine predicates (checkNode name kind capture)
    (checkConnection "@parent" name edge .defines none (some kind) none)

theorem check_argument_connection (name kind target : String) (targetKind edge : Option String)
    (predicates : List PredicateDraft) :
    ((argumentConnection name kind target targetKind edge predicates).check engine).toOption =
      (gated engine predicates (checkNode name kind none)).bind fun definition =>
        (gated engine predicates (checkConnection name target (some (edge.getD "uses")) .uses (some kind)
          targetKind none)).map fun link => [definition, link] := by
  rw [check_connection_written name target edge .uses (some kind) targetKind none
    EdgeType.parse_uses]
  exact check_halves engine predicates (checkNode name kind none)
    (checkConnection name target edge .uses (some kind) targetKind none)

theorem pair_iff {first second : Option Converter} {converters : List Converter} :
    (first.bind fun definition => second.map fun link => [definition, link]) = some converters ↔
      ∃ definition link, (first.map fun converter => [converter]) = some [definition] ∧
        (second.map fun converter => [converter]) = some [link] ∧
        converters = [definition, link] := by
  cases first with
  | none => simp
  | some definition =>
      cases second with
      | none => simp
      | some link => simp [eq_comm]

-- Converters of an entry

def loaded (drafts : List ConverterDraft) : Option (List Converter) :=
  (drafts.mapM (check engine)).toOption.map List.flatten

theorem loaded_cons (draft : ConverterDraft) (rest : List ConverterDraft) :
    loaded engine (draft :: rest) = (draft.check engine).toOption.bind fun first =>
      (loaded engine rest).map fun others => first ++ others := by
  rw [loaded, List.mapM_cons, to_option_bind, loaded]
  cases draft.check engine with
  | error fault => rfl
  | ok first =>
      cases rest.mapM (check engine) with
      | error fault => rfl
      | ok others => rfl

theorem loaded_expansion (draft : ConverterDraft) (rest : List ConverterDraft) :
    loaded engine (draft.expansion ++ rest) = loaded engine (draft :: rest) := by
  cases draft with
  | node | connection | validateIdentifier | recordImport => rfl
  | nodeWithParent name kind capture edge predicates =>
      simp only [expansion, List.cons_append, List.nil_append, loaded_cons, check_node,
        check_connection, check_node_with_parent, Option.bind_assoc, Option.bind_map,
        Option.map_bind, Option.map_map, Function.comp_def]
  | argumentConnection name kind target targetKind edge predicates =>
      simp only [expansion, List.cons_append, List.nil_append, loaded_cons, check_node,
        check_connection, check_argument_connection, Option.bind_assoc, Option.bind_map,
        Option.map_bind, Option.map_map, Function.comp_def]

/-- Some converters of the first list are written out in the second one. -/
inductive WrittenOut : List ConverterDraft → List ConverterDraft → Prop
  | nothing : WrittenOut [] []
  | kept (draft : ConverterDraft) {drafts others : List ConverterDraft}
      (later : WrittenOut drafts others) : WrittenOut (draft :: drafts) (draft :: others)
  | expanded (draft : ConverterDraft) {drafts others : List ConverterDraft}
      (later : WrittenOut drafts others) : WrittenOut (draft :: drafts) (draft.expansion ++ others)

theorem WrittenOut.loaded_eq {drafts others : List ConverterDraft}
    (written : WrittenOut drafts others) : loaded engine others = loaded engine drafts := by
  induction written with
  | nothing => rfl
  | kept draft _ induction => rw [loaded_cons, loaded_cons, induction]
  | expanded draft _ induction => rw [loaded_expansion, loaded_cons, loaded_cons, induction]

end ConverterDraft

-- Documents

namespace EntryDraft

structure WrittenOut (draft other : EntryDraft) : Prop where
  pattern : other.pattern = draft.pattern
  predicates : other.predicates = draft.predicates
  converters : ConverterDraft.WrittenOut draft.converters other.converters

theorem to_option_check (engine : RegexEngine) (draft : EntryDraft) :
    (draft.check engine).toOption =
      draft.pattern.check.toOption.bind fun pattern =>
        (draft.predicates.mapM (PredicateDraft.check engine)).toOption.bind fun predicates =>
          (ConverterDraft.loaded engine draft.converters).map fun converters =>
            ⟨pattern, predicates, converters⟩ := by
  rw [check, to_option_bind]
  congr
  funext pattern
  rw [to_option_bind]
  congr
  funext predicates
  rw [ConverterDraft.loaded]
  cases draft.converters.mapM (ConverterDraft.check engine) with
  | error fault => rfl
  | ok converters => rfl

theorem WrittenOut.check_eq (engine : RegexEngine) {draft other : EntryDraft}
    (written : draft.WrittenOut other) :
    (other.check engine).toOption = (draft.check engine).toOption := by
  rw [to_option_check, to_option_check, written.pattern, written.predicates,
    written.converters.loaded_eq]

end EntryDraft

namespace PatternSet

/-- Both are loaded as the same patterns, or both are refused for the same entry. -/
inductive LoadsAlike : Except EntryError PatternSet → Except EntryError PatternSet → Prop
  | loaded (patterns : PatternSet) : LoadsAlike (.ok patterns) (.ok patterns)
  | refused (entry : Nat) (fault other : EntryFault) :
      LoadsAlike (.error ⟨entry, fault⟩) (.error ⟨entry, other⟩)

theorem of_drafts_alike (engine : RegexEngine) {drafts others : List EntryDraft}
    (written : List.Forall₂ EntryDraft.WrittenOut drafts others) (position : Nat) :
    LoadsAlike (ofDraftsFrom engine position drafts) (ofDraftsFrom engine position others) := by
  induction written generalizing position with
  | nil => exact .loaded []
  | @cons draft other drafts others first _ induction =>
      have same := first.check_eq engine
      rw [ofDraftsFrom, ofDraftsFrom]
      cases checked : draft.check engine with
      | error fault =>
          cases also : other.check engine with
          | error otherFault => exact .refused position fault otherFault
          | ok entry =>
              rw [checked, also] at same
              cases same
      | ok entry =>
          have also : other.check engine = .ok entry := by
            rw [ok_iff_to_option, same, checked]
            rfl
          have later := induction (position + 1)
          rw [also]
          generalize ofDraftsFrom engine (position + 1) drafts = rest at later ⊢
          generalize ofDraftsFrom engine (position + 1) others = otherRest at later ⊢
          cases later with
          | loaded patterns => exact .loaded (entry :: patterns)
          | refused refusedEntry fault otherFault => exact .refused refusedEntry fault otherFault

theorem parse_alike (engine : RegexEngine) {format otherFormat : DocumentFormat} {source other : String}
    {draft written : DocumentDraft} (read : format.parse? source = some draft)
    (readOther : otherFormat.parse? other = some written)
    (writtenOut : List.Forall₂ EntryDraft.WrittenOut draft.entries written.entries)
    (patterns : PatternSet) :
    parse engine format source = .ok patterns ↔ parse engine otherFormat other = .ok patterns := by
  have alike := of_drafts_alike engine writtenOut 0
  simp only [parse, read, readOther, ofDrafts]
  generalize ofDraftsFrom engine 0 draft.entries = loaded at alike ⊢
  generalize ofDraftsFrom engine 0 written.entries = otherLoaded at alike ⊢
  cases alike with
  | loaded shared => rfl
  | refused entry fault otherFault =>
      constructor
      · intro same
        cases same
      · intro same
        cases same

end PatternSet

/-- A macro can be loaded exactly if a node and a connection with its fields can, and it is loaded as
these two. A document with some macros written out is loaded as the same patterns or refused for the
same entry, so all runs are the same. -/
theorem macros_stand_for_expansions (engine : RegexEngine) :
    (∀ name kind capture edge predicates converters,
      (ConverterDraft.nodeWithParent name kind capture edge predicates).check engine =
          .ok converters ↔
        ∃ definition link,
          (ConverterDraft.node name kind capture predicates).check engine = .ok [definition] ∧
          (ConverterDraft.connection "@parent" name (some (edge.getD "defines")) none (some kind)
            none predicates).check engine = .ok [link] ∧
          converters = [definition, link]) ∧
    (∀ name kind target targetKind edge predicates converters,
      (ConverterDraft.argumentConnection name kind target targetKind edge predicates).check engine =
          .ok converters ↔
        ∃ definition link,
          (ConverterDraft.node name kind none predicates).check engine = .ok [definition] ∧
          (ConverterDraft.connection name target (some (edge.getD "uses")) (some kind) targetKind
            none predicates).check engine = .ok [link] ∧
          converters = [definition, link]) ∧
    ∀ (format otherFormat : DocumentFormat) (source other : String)
      (draft written : DocumentDraft),
      format.parse? source = some draft → otherFormat.parse? other = some written →
        List.Forall₂ EntryDraft.WrittenOut draft.entries written.entries →
          PatternSet.LoadsAlike (PatternSet.ofDrafts engine draft.entries)
            (PatternSet.ofDrafts engine written.entries) ∧
          (∀ patterns, PatternSet.parse engine format source = .ok patterns ↔
            PatternSet.parse engine otherFormat other = .ok patterns) ∧
          ∀ patterns others, PatternSet.parse engine format source = .ok patterns →
            PatternSet.parse engine otherFormat other = .ok others → ∀ tree builder,
              runEngine others tree builder = runEngine patterns tree builder := by
  refine ⟨?_, ?_, ?_⟩
  · intro name kind capture edge predicates converters
    simp only [ok_iff_to_option, ConverterDraft.check_node_with_parent, ConverterDraft.check_node,
      ConverterDraft.check_connection]
    exact ConverterDraft.pair_iff
  · intro name kind target targetKind edge predicates converters
    simp only [ok_iff_to_option, ConverterDraft.check_argument_connection,
      ConverterDraft.check_node, ConverterDraft.check_connection]
    exact ConverterDraft.pair_iff
  · intro format otherFormat source other draft written read readOther writtenOut
    have same := PatternSet.parse_alike engine read readOther writtenOut
    refine ⟨PatternSet.of_drafts_alike engine writtenOut 0, same, ?_⟩
    intro patterns others loaded otherLoaded tree builder
    cases otherLoaded.symm.trans ((same patterns).mp loaded)
    rfl

/-- Classes, with an edge from what encloses them and an edge to what they are derived from. -/
def classDocument : DocumentDraft :=
  .list [⟨.node "class" [] [.node "base" [] [] [] true] [] false, [],
    [.nodeWithParent "@class" "'class'" (some "@class") none [],
      .argumentConnection "@class" "'class'" "@base" none none [.isBound false "base"]]⟩]

def longClassDocument : DocumentDraft :=
  .list [⟨.node "class" [] [.node "base" [] [] [] true] [] false, [],
    [.node "@class" "'class'" (some "@class") [],
      .connection "@parent" "@class" (some "defines") none (some "'class'") none [],
      .argumentConnection "@class" "'class'" "@base" none none [.isBound false "base"]]⟩]

theorem long_class_document_loads_alike :
    ∃ patterns, PatternSet.parse Regex.engine .json classDocument.toJson.compact = .ok patterns ∧
      PatternSet.parse Regex.engine .json longClassDocument.toJson.compact = .ok patterns := by
  have read := DocumentDraft.read_of_holds classDocument.parse_written (by decide)
  have readLong := DocumentDraft.read_of_holds longClassDocument.parse_written (by decide)
  have writtenOut :
      List.Forall₂ EntryDraft.WrittenOut classDocument.entries longClassDocument.entries :=
    .cons ⟨rfl, rfl, .expanded _ (.kept _ .nothing)⟩ .nil
  obtain ⟨_, same, _⟩ :=
    (macros_stand_for_expansions Regex.engine).2.2 .json .json _ _ _ _ read readLong writtenOut
  have loaded : ∃ patterns, PatternSet.parse Regex.engine .json classDocument.toJson.compact = .ok patterns := by
    rw [PatternSet.parse, read]
    exact ⟨_, rfl⟩
  obtain ⟨patterns, loads⟩ := loaded
  exact ⟨patterns, loads, (same patterns).mp loads⟩

end SyntaxGraph
