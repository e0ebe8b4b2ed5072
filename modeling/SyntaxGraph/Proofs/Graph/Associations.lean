import Mathlib.Data.List.Induction
import Mathlib.Logic.Function.Basic
import SyntaxGraph.Graph.Builder

/-!
The index between syntax nodes and ids after any calls on a builder. In either direction the last
call that bears on a key decides: it begins a file, or associates the key. What is found in one
direction is known in the other one too, and leads back to the key exactly as long as it is not
associated anew.

A builder keeps one log of associations. It answers as a map for each direction would.
-/

set_option autoImplicit false

namespace SyntaxGraph

inductive BuilderCall where
  | beginFile (file : String)
  | associate (node : NodeId) (id : String)
  | changeGraph (change : EntityGraph → EntityGraph)
  | recordImport (record : ImportRecord)

namespace BuilderCall

def leaves (builder : GraphBuilder) : BuilderCall → GraphBuilder
  | .beginFile file => builder.beginFile file
  | .associate node id => builder.associate node id
  | .changeGraph change => { builder with graph := change builder.graph }
  | .recordImport record => builder.recordImport record

/-- Whether the id of a syntax node is given or forgotten. -/
def concernsNode (node : NodeId) : BuilderCall → Bool
  | .beginFile _ => true
  | .associate other _ => other = node
  | .changeGraph _ | .recordImport _ => false

/-- Whether the syntax node of an id is given or forgotten. -/
def concernsId (id : String) : BuilderCall → Bool
  | .beginFile _ => true
  | .associate _ other => other = id
  | .changeGraph _ | .recordImport _ => false

/-- The last of the calls that concern something, and the calls behind it. -/
structure LastOf (concerns : BuilderCall → Bool) (calls : List BuilderCall) (call : BuilderCall)
    (later : List BuilderCall) : Prop where
  ends_calls : call :: later <:+ calls
  concerned : concerns call = true
  unconcerned_later : ∀ next ∈ later, concerns next = false

section LastOf

variable {concerns others : BuilderCall → Bool} {calls later rest : List BuilderCall}
  {call final : BuilderCall}

theorem LastOf.not_later (last : LastOf concerns calls call later)
    (concerned : concerns final = true) : final ∉ later := by
  intro member
  have passed := last.unconcerned_later final member
  rw [concerned] at passed
  cases passed

theorem last_of_concerned (concerned : concerns final = true) :
    LastOf concerns (calls ++ [final]) call later ↔ call = final ∧ later = [] := by
  constructor
  · intro last
    rcases List.suffix_concat_iff.1 last.ends_calls with missing | ⟨shorter, split, _⟩
    · cases missing
    · cases shorter with
      | nil =>
          cases split
          exact ⟨rfl, rfl⟩
      | cons first rest =>
          cases split
          exact absurd (List.mem_append_right rest List.mem_cons_self) (last.not_later concerned)
  · rintro ⟨rfl, rfl⟩
    exact ⟨List.suffix_append _ _, concerned, by simp⟩

theorem last_of_unconcerned (unconcerned : concerns final = false) :
    LastOf concerns (calls ++ [final]) call later ↔
      ∃ shorter, later = shorter ++ [final] ∧ LastOf concerns calls call shorter := by
  constructor
  · intro last
    rcases List.suffix_concat_iff.1 last.ends_calls with missing | ⟨longer, split, within⟩
    · cases missing
    · cases longer with
      | nil =>
          cases split
          have concerned := last.concerned
          rw [unconcerned] at concerned
          cases concerned
      | cons first shorter =>
          cases split
          refine ⟨shorter, rfl, within, last.concerned, ?_⟩
          intro next member
          exact last.unconcerned_later next (List.mem_append_left _ member)
  · rintro ⟨shorter, rfl, last⟩
    refine ⟨?_, last.concerned, ?_⟩
    · exact List.suffix_concat_iff.2 (Or.inr ⟨call :: shorter, rfl, last.ends_calls⟩)
    · intro next member
      rcases List.mem_append.1 member with earlier | here
      · exact last.unconcerned_later next earlier
      · rw [List.mem_singleton.1 here]
        exact unconcerned

theorem exists_last_of (member : call ∈ calls) (concerned : concerns call = true) :
    ∃ final later, LastOf concerns calls final later := by
  induction calls using List.reverseRec with
  | nil => cases member
  | append_singleton earlier final induction =>
      cases concerning : concerns final with
      | true => exact ⟨final, [], (last_of_concerned concerning).2 ⟨rfl, rfl⟩⟩
      | false =>
          rcases List.mem_append.1 member with before | here
          · obtain ⟨found, later, last⟩ := induction before
            exact ⟨found, later ++ [final], (last_of_unconcerned concerning).2 ⟨later, rfl, last⟩⟩
          · rw [List.mem_singleton.1 here, concerning] at concerned
            cases concerned

/-- Where the last call that concerns one thing concerns another one too, the last call that
concerns the other is the same call or comes behind it. -/
theorem LastOf.not_before (last : LastOf concerns calls call later)
    (concerned : others call = true) (otherLast : LastOf others calls final rest) :
    final :: rest <:+ call :: later := by
  rcases List.suffix_or_suffix_of_suffix otherLast.ends_calls last.ends_calls with within | beyond
  · exact within
  · rcases List.suffix_cons_iff.1 beyond with same | behind
    · cases same
      exact List.suffix_rfl
    · exact absurd (behind.mem List.mem_cons_self) (otherLast.not_later concerned)

end LastOf

end BuilderCall

namespace GraphBuilder

open BuilderCall

/-- A builder on a graph after some calls. -/
def ofCalls (graph : EntityGraph) (calls : List BuilderCall) : GraphBuilder :=
  calls.foldl leaves (onGraph graph)

theorem of_calls_append_singleton (graph : EntityGraph) (calls : List BuilderCall)
    (final : BuilderCall) :
    ofCalls graph (calls ++ [final]) = final.leaves (ofCalls graph calls) := by
  rw [ofCalls, List.foldl_append]
  rfl

structure Directions where
  idOf : NodeId → Option String
  nodeOf : String → Option NodeId

def Directions.empty : Directions := ⟨fun _ => none, fun _ => none⟩

def Directions.after (directions : Directions) : BuilderCall → Directions
  | .beginFile _ => .empty
  | .associate node id =>
      ⟨Function.update directions.idOf node (some id),
        Function.update directions.nodeOf id (some node)⟩
  | .changeGraph _ | .recordImport _ => directions

/-- The log of a builder answers as two maps do. -/
structure AnswersAs (builder : GraphBuilder) (directions : Directions) : Prop where
  same_id : ∀ node, builder.idOf? node = directions.idOf node
  same_node : ∀ id, builder.nodeOf? id = directions.nodeOf id

theorem AnswersAs.step {builder : GraphBuilder} {directions : Directions}
    (answers : builder.AnswersAs directions) (call : BuilderCall) :
    (call.leaves builder).AnswersAs (directions.after call) := by
  cases call with
  | beginFile file => exact ⟨fun _ => rfl, fun _ => rfl⟩
  | changeGraph change => exact ⟨answers.same_id, answers.same_node⟩
  | recordImport record => exact ⟨answers.same_id, answers.same_node⟩
  | associate node id =>
      constructor
      · intro other
        by_cases same : node = other
        · simp [leaves, associate, idOf?, Directions.after, same]
        · have kept := answers.same_id other
          rw [idOf?] at kept
          simp [leaves, associate, idOf?, Directions.after, same, Ne.symm same, kept]
      · intro other
        by_cases same : id = other
        · simp [leaves, associate, nodeOf?, Directions.after, same]
        · have kept := answers.same_node other
          rw [nodeOf?] at kept
          simp [leaves, associate, nodeOf?, Directions.after, same, Ne.symm same, kept]

theorem log_answers_as_maps (graph : EntityGraph) (calls : List BuilderCall) :
    (ofCalls graph calls).AnswersAs (calls.foldl Directions.after .empty) := by
  induction calls using List.reverseRec with
  | nil => exact ⟨fun _ => rfl, fun _ => rfl⟩
  | append_singleton earlier final induction =>
      rw [of_calls_append_singleton, List.foldl_append]
      exact induction.step final

/-- A look-up that finds what the last call concerning it wrote. Such a call writes an answer, or
begins a file, after which there is none; all other calls leave the look-up as it is. -/
structure SettledBy {Answer : Type} (look : GraphBuilder → Option Answer)
    (concerns : BuilderCall → Bool) (writing : Answer → BuilderCall) : Prop where
  concerned_iff : ∀ call, concerns call = true ↔
    (∃ file, call = .beginFile file) ∨ ∃ answer, call = writing answer
  fresh : ∀ graph, look (onGraph graph) = none
  forgotten : ∀ builder file, look (leaves builder (.beginFile file)) = none
  written : ∀ builder answer, look (leaves builder (writing answer)) = some answer
  passed : ∀ builder call, concerns call = false → look (leaves builder call) = look builder

theorem id_settled_by (node : NodeId) :
    SettledBy (idOf? · node) (concernsNode node) (.associate node) := by
  constructor
  · intro call
    cases call <;> simp [concernsNode]
  · intro graph
    rfl
  · intro builder file
    rfl
  · intro builder id
    simp [leaves, associate, idOf?]
  · intro builder call unconcerned
    cases call with
    | beginFile file => cases unconcerned
    | associate other id =>
        have apart : ¬other = node := of_decide_eq_false unconcerned
        simp [leaves, associate, idOf?, apart]
    | changeGraph change => rfl
    | recordImport record => rfl

theorem node_settled_by (id : String) :
    SettledBy (nodeOf? · id) (concernsId id) (.associate · id) := by
  constructor
  · intro call
    cases call <;> simp [concernsId]
  · intro graph
    rfl
  · intro builder file
    rfl
  · intro builder node
    simp [leaves, associate, nodeOf?]
  · intro builder call unconcerned
    cases call with
    | beginFile file => cases unconcerned
    | associate node other =>
        have apart : ¬other = id := of_decide_eq_false unconcerned
        simp [leaves, associate, nodeOf?, apart]
    | changeGraph change => rfl
    | recordImport record => rfl

namespace SettledBy

variable {Answer : Type} {look : GraphBuilder → Option Answer}
  {concerns others : BuilderCall → Bool} {writing : Answer → BuilderCall}
  (settled : SettledBy look concerns writing)
include settled

theorem writing_injective {first second : Answer} (same : writing first = writing second) :
    first = second := by
  have found := settled.written default first
  rw [same, settled.written] at found
  exact (Option.some.inj found).symm

theorem writing_begins_no_file (answer : Answer) (file : String) :
    writing answer ≠ .beginFile file := by
  intro same
  have found := settled.written default answer
  rw [same, settled.forgotten] at found
  cases found

theorem found_iff {call : BuilderCall} (concerned : concerns call = true) (builder : GraphBuilder)
    (answer : Answer) : look (call.leaves builder) = some answer ↔ writing answer = call := by
  rcases (settled.concerned_iff call).1 concerned with ⟨file, rfl⟩ | ⟨found, rfl⟩
  · rw [settled.forgotten]
    constructor
    · intro impossible
      cases impossible
    · intro same
      exact absurd same (settled.writing_begins_no_file answer file)
  · rw [settled.written]
    constructor
    · intro same
      rw [Option.some.inj same]
    · intro same
      rw [settled.writing_injective same]

theorem found_after_iff (graph : EntityGraph) (calls : List BuilderCall) (answer : Answer) :
    look (ofCalls graph calls) = some answer ↔
      ∃ later, LastOf concerns calls (writing answer) later := by
  induction calls using List.reverseRec with
  | nil =>
      constructor
      · intro found
        rw [ofCalls, List.foldl_nil, settled.fresh] at found
        cases found
      · rintro ⟨later, last⟩
        cases List.suffix_nil.1 last.ends_calls
  | append_singleton earlier final induction =>
      rw [of_calls_append_singleton]
      cases concerned : concerns final with
      | true =>
          rw [settled.found_iff concerned]
          constructor
          · intro same
            exact ⟨[], (last_of_concerned concerned).2 ⟨same, rfl⟩⟩
          · rintro ⟨later, last⟩
            exact ((last_of_concerned concerned).1 last).1
      | false =>
          rw [settled.passed _ _ concerned, induction]
          constructor
          · rintro ⟨later, last⟩
            exact ⟨later ++ [final], (last_of_unconcerned concerned).2 ⟨later, rfl, last⟩⟩
          · rintro ⟨later, last⟩
            obtain ⟨shorter, _, last⟩ := (last_of_unconcerned concerned).1 last
            exact ⟨shorter, last⟩

/-- Behind a call that wrote an answer, and as long as no file is begun, there is an answer; it is
the same one as long as none is written again. -/
theorem found_since (graph : EntityGraph) {calls later : List BuilderCall} {answer : Answer}
    (last : LastOf others calls (writing answer) later)
    (forgets : ∀ file, others (.beginFile file) = true) :
    ∃ found, look (ofCalls graph calls) = some found ∧
      (found = answer ↔ ∀ another, writing another ∉ later) := by
  -- The call that decides the look-up is the given one or is among those behind it, where no file
  -- is begun and the given call does not come again.
  have concerned : ∀ found, concerns (writing found) = true := fun found =>
    (settled.concerned_iff _).2 (Or.inr ⟨found, rfl⟩)
  obtain ⟨final, rest, finalLast⟩ :=
    exists_last_of (last.ends_calls.mem List.mem_cons_self) (concerned answer)
  have within := last.not_before (concerned answer) finalLast
  rcases (settled.concerned_iff final).1 finalLast.concerned with ⟨file, rfl⟩ | ⟨found, rfl⟩
  · exfalso
    rcases List.mem_cons.1 (within.mem List.mem_cons_self) with same | behind
    · exact settled.writing_begins_no_file answer file same.symm
    · exact last.not_later (forgets file) behind
  · refine ⟨found, (settled.found_after_iff graph calls found).2 ⟨rest, finalLast⟩, ?_⟩
    rcases List.suffix_cons_iff.1 within with same | behind
    · obtain ⟨sameCall, rfl⟩ := List.cons.inj same
      refine iff_of_true (settled.writing_injective sameCall) ?_
      intro another
      exact finalLast.not_later (concerned another)
    · have written : writing found ∈ later := behind.mem List.mem_cons_self
      refine iff_of_false ?_ fun unwritten => unwritten found written
      rintro rfl
      exact last.not_later last.concerned written

end SettledBy

/-- After any calls on a builder, the syntax node of an id is the one that the id was last
associated with since the file was begun, and the id of a syntax node is the one that the node was
last associated with since then. The node of an id has an id, which is this one exactly if the node
was not associated again afterwards; the id of a node has a node, which is this one exactly if the
id was not associated again afterwards. -/
theorem directions_agree_until_reassociated (graph : EntityGraph) (calls : List BuilderCall) :
    let builder := ofCalls graph calls
    (∀ node id, builder.nodeOf? id = some node ↔
      ∃ later, LastOf (concernsId id) calls (.associate node id) later) ∧
    (∀ node id, builder.idOf? node = some id ↔
      ∃ later, LastOf (concernsNode node) calls (.associate node id) later) ∧
    (∀ node id later, LastOf (concernsId id) calls (.associate node id) later →
      ∃ found, builder.idOf? node = some found ∧
        (found = id ↔ ∀ other, .associate node other ∉ later)) ∧
    ∀ node id later, LastOf (concernsNode node) calls (.associate node id) later →
      ∃ found, builder.nodeOf? id = some found ∧
        (found = node ↔ ∀ other, .associate other id ∉ later) := by
  intro builder
  refine ⟨?_, ?_, ?_, ?_⟩
  · intro node id
    exact (node_settled_by id).found_after_iff graph calls node
  · intro node id
    exact (id_settled_by node).found_after_iff graph calls id
  · intro node id later last
    exact (id_settled_by node).found_since graph last fun _ => rfl
  · intro node id later last
    exact (node_settled_by id).found_since graph last fun _ => rfl

/-- A class that is named once more after one of its methods was named. -/
def renamedClass : List BuilderCall :=
  [.beginFile "zoo.py", .changeGraph (·.claim "Dog" .classKind (some "zoo.py") none),
    .associate 0 "Dog", .associate 1 "Dog.bark", .associate 0 "zoo.Dog"]

theorem renamed_class_keeps_method :
    let builder := ofCalls .empty renamedClass
    LastOf (concernsId "Dog") renamedClass (.associate 0 "Dog")
        [.associate 1 "Dog.bark", .associate 0 "zoo.Dog"] ∧
      LastOf (concernsNode 1) renamedClass (.associate 1 "Dog.bark") [.associate 0 "zoo.Dog"] ∧
      (∃ found, builder.idOf? 0 = some found ∧ found ≠ "Dog") ∧
      builder.nodeOf? "Dog.bark" = some 1 := by
  intro builder
  have named : LastOf (concernsId "Dog") renamedClass (.associate 0 "Dog")
      [.associate 1 "Dog.bark", .associate 0 "zoo.Dog"] := ⟨⟨_ :: [_], rfl⟩, rfl, by decide⟩
  have method : LastOf (concernsNode 1) renamedClass (.associate 1 "Dog.bark")
      [.associate 0 "zoo.Dog"] := ⟨⟨_ :: _ :: [_], rfl⟩, rfl, by decide⟩
  obtain ⟨_, _, idSince, nodeSince⟩ := directions_agree_until_reassociated .empty renamedClass
  refine ⟨named, method, ?_, ?_⟩
  · obtain ⟨found, remembered, same_iff⟩ := idSince 0 "Dog" _ named
    refine ⟨found, remembered, fun same => same_iff.1 same "zoo.Dog" ?_⟩
    exact List.mem_cons_of_mem _ (List.mem_singleton_self _)
  · obtain ⟨found, remembered, same_iff⟩ := nodeSince 1 "Dog.bark" _ method
    have same : found = 1 := same_iff.2 fun other => by simp
    rw [← same]
    exact remembered

/-- Two ids of one syntax node, and two syntax nodes of one id: the earlier one still leads to what
they share, which leads back to the later one. -/
theorem shared_ends_lead_to_later :
    let twoIds := ofCalls .empty [.associate 0 "Dog", .associate 0 "zoo.Dog"]
    let twoNodes := ofCalls .empty [.associate 0 "Dog", .associate 1 "Dog"]
    (twoIds.nodeOf? "Dog" = some 0 ∧ twoIds.idOf? 0 ≠ some "Dog") ∧
      twoNodes.idOf? 0 = some "Dog" ∧ twoNodes.nodeOf? "Dog" ≠ some 0 := by
  decide

end GraphBuilder

end SyntaxGraph
