import SyntaxGraph.Proofs.Expression.Failure

/-!
Chains of calls on a captured node. The node stays what it is through calls that nothing answers,
until one asks for its entity or for something about its text. From then on the value is no node any
more, and every further call yields something. So a chain fails in one way only: the first call that
is answered asks for the entity, and there is none.
-/

set_option autoImplicit false

namespace SyntaxGraph

/-- The entity of a node in the current file. -/
def MatchContext.entityOf? (context : MatchContext) (node : NodeId) : Option Entity :=
  context.builder.bind fun builder => builder.entityOf? node

/-- The calls that every value answers, by its text if it has no answer of its own. -/
def textCallNames : List String := ["split", "hash", "until"]

def firstAnswered (calls : List DotCall) : Option String :=
  (calls.map DotCall.name).find? fun name => name ∈ "node" :: textCallNames

theorem text_call_eq_none_iff {name : String} {arguments : List String} :
    textCall? name arguments = none ↔ name ∉ textCallNames := by
  unfold textCall? textCallNames
  split <;> simp_all

theorem first_answered_cons (name : String) (arguments : List Expression) (rest : List DotCall) :
    firstAnswered (.mk name arguments :: rest) =
      if name ∈ "node" :: textCallNames then some name else firstAnswered rest := by
  unfold firstAnswered
  rw [List.map_cons, List.find?_cons]
  simp only [DotCall.name]
  split <;> simp_all

variable {context : MatchContext}

-- Arguments

theorem resolve_all_ok {expressions : List Expression}
    (each : ∀ expression ∈ expressions, ∃ text, expression.resolve context = .ok text) :
    ∃ texts, resolveAll context expressions = .ok texts := by
  induction expressions with
  | nil => exact ⟨[], by rw [resolveAll]⟩
  | cons expression rest induction =>
      obtain ⟨⟨text, here⟩, behind⟩ := List.forall_mem_cons.1 each
      obtain ⟨texts, others⟩ := induction behind
      refine ⟨text :: texts, ?_⟩
      rw [resolveAll, here, others]
      rfl

/-- Every argument in the chain has a value. -/
def ArgumentsResolve (context : MatchContext) (calls : List DotCall) : Prop :=
  ∀ call ∈ calls, ∀ argument ∈ call.arguments, ∃ text, argument.resolve context = .ok text

theorem ArgumentsResolve.step (capture : String) {name : String} {arguments : List Expression}
    {rest : List DotCall} (resolve : ArgumentsResolve context (.mk name arguments :: rest)) :
    ArgumentsResolve context rest ∧ ∃ texts, ∀ value,
      applyCalls context capture value (.mk name arguments :: rest) =
        applyCall context capture value name texts >>= fun next =>
          applyCalls context capture next rest := by
  obtain ⟨here, behind⟩ := List.forall_mem_cons.1 resolve
  obtain ⟨texts, resolved⟩ : ∃ texts, resolveAll context arguments = .ok texts :=
    resolve_all_ok here
  refine ⟨behind, texts, fun value => ?_⟩
  rw [applyCalls, resolved]
  rfl

-- Values that are no nodes

theorem call_on_text_answered {tree : Tree} {value : Value} (known : value.Known tree)
    {name : String} {arguments : List String} (listed : name ∈ textCallNames) :
    ∃ next, callOnText tree value name arguments = .ok next ∧ next.IsDetached := by
  obtain ⟨call, found⟩ : ∃ call, textCall? name arguments = some call :=
    Option.ne_none_iff_exists'.1 fun absent => text_call_eq_none_iff.1 absent listed
  obtain ⟨text, rendered⟩ := Value.render_known known
  refine ⟨call text, ?_, text_call_detached found text⟩
  rw [callOnText, found, rendered]
  rfl

theorem call_on_text_unanswered {tree : Tree} (value : Value) {name : String}
    {arguments : List String} (unlisted : name ∉ textCallNames) :
    callOnText tree value name arguments = .ok value := by
  rw [callOnText, text_call_eq_none_iff.2 unlisted]

theorem call_on_text_detached (tree : Tree) {value : Value} (detached : value.IsDetached)
    (name : String) (arguments : List String) :
    ∃ next, callOnText tree value name arguments = .ok next ∧ next.IsDetached := by
  by_cases listed : name ∈ textCallNames
  · exact call_on_text_answered (detached.known tree) listed
  · exact ⟨value, call_on_text_unanswered value listed, detached⟩

theorem apply_call_detached (capture : String) {value : Value} (detached : value.IsDetached)
    (name : String) (arguments : List String) :
    ∃ next, applyCall context capture value name arguments = .ok next ∧ next.IsDetached := by
  have onText := call_on_text_detached context.tree detached name arguments
  cases value with
  | node id => exact detached.elim
  | text content => exact onText
  | entity id => exact onText
  | list items =>
      rw [applyCall]
      split
      · exact ⟨_, rfl, trivial⟩
      · exact onText

theorem apply_calls_detached (capture : String) {value : Value} (detached : value.IsDetached)
    {calls : List DotCall} (resolve : ArgumentsResolve context calls) :
    ∃ final, applyCalls context capture value calls = .ok final ∧ final.IsDetached := by
  induction calls generalizing value with
  | nil => exact ⟨value, by rw [applyCalls], detached⟩
  | cons call rest induction =>
      obtain ⟨name, arguments⟩ := call
      obtain ⟨behind, texts, step⟩ := resolve.step capture
      obtain ⟨next, applied, nextDetached⟩ := apply_call_detached capture detached name texts
      rw [step, applied]
      exact induction nextDetached behind

-- Nodes

theorem entity_call_mapped {node : NodeId} {entity : Entity}
    (mapped : context.entityOf? node = some entity) (capture : String) (arguments : List String) :
    applyCall context capture (.node node) "node" arguments = .ok (.entity entity.id) := by
  unfold MatchContext.entityOf? at mapped
  rw [applyCall, if_pos rfl, mapped]

theorem entity_call_unmapped {node : NodeId} (unmapped : context.entityOf? node = none)
    (capture : String) (arguments : List String) :
    applyCall context capture (.node node) "node" arguments = .error (.unmappedNode capture) := by
  unfold MatchContext.entityOf? at unmapped
  rw [applyCall, if_pos rfl, unmapped]

section

variable {node : NodeId} (issued : context.tree.contains node = true)
include issued

/-- What a call on a node can do: it asks for the entity, is answered by the text of the node, or
leaves the node alone. -/
theorem apply_call_node (capture name : String) (arguments : List String) :
    (name = "node" ∧ context.entityOf? node = none ∧
      applyCall context capture (.node node) name arguments = .error (.unmappedNode capture)) ∨
    (name ∈ "node" :: textCallNames ∧
      (name = "node" → context.entityOf? node ≠ none) ∧
      ∃ next, applyCall context capture (.node node) name arguments = .ok next ∧
        next.IsDetached) ∨
    (name ∉ "node" :: textCallNames ∧
      applyCall context capture (.node node) name arguments = .ok (.node node)) := by
  by_cases asks : name = "node"
  · subst asks
    cases mapped : context.entityOf? node with
    | none => exact Or.inl ⟨rfl, rfl, entity_call_unmapped mapped capture arguments⟩
    | some entity =>
        have found := entity_call_mapped mapped capture arguments
        exact Or.inr (Or.inl ⟨List.mem_cons_self, fun _ => Option.some_ne_none entity, _, found,
          trivial⟩)
  · have onText : applyCall context capture (.node node) name arguments =
        callOnText context.tree (.node node) name arguments := by
      rw [applyCall, if_neg asks]
    have known : (Value.node node).Known context.tree := issued
    rw [onText]
    by_cases listed : name ∈ textCallNames
    · exact Or.inr (Or.inl ⟨List.mem_cons_of_mem _ listed, fun same => absurd same asks,
        call_on_text_answered known listed⟩)
    · exact Or.inr (Or.inr ⟨by simpa [asks] using listed,
        call_on_text_unanswered (.node node) listed⟩)

theorem apply_calls_node (capture : String) {calls : List DotCall}
    (resolve : ArgumentsResolve context calls) :
    ((context.entityOf? node = none ∧ firstAnswered calls = some "node") ∧
      applyCalls context capture (.node node) calls = .error (.unmappedNode capture)) ∨
    (¬(context.entityOf? node = none ∧ firstAnswered calls = some "node") ∧
      ∃ final, applyCalls context capture (.node node) calls = .ok final ∧
        final.Known context.tree) := by
  induction calls with
  | nil => exact Or.inr ⟨nofun, .node node, by rw [applyCalls], issued⟩
  | cons call rest induction =>
      obtain ⟨name, arguments⟩ := call
      obtain ⟨behind, texts, step⟩ := resolve.step capture
      rw [step, first_answered_cons]
      rcases apply_call_node issued capture name texts with
        ⟨rfl, unmapped, failed⟩ | ⟨listed, mapped, next, applied, detached⟩ | ⟨unlisted, kept⟩
      · rw [failed]
        exact Or.inl ⟨⟨unmapped, rfl⟩, rfl⟩
      · obtain ⟨final, ends, finalDetached⟩ := apply_calls_detached capture detached behind
        rw [applied, if_pos listed]
        refine Or.inr ⟨?_, final, ends, finalDetached.known context.tree⟩
        rintro ⟨unmapped, asks⟩
        exact mapped (Option.some.inj asks) unmapped
      · rw [kept, if_neg unlisted]
        exact induction behind

end

-- The expression

theorem resolve_single (source : String) {reference : Reference}
    (required : reference.isOptional = false) :
    (Expression.mk source [.reference reference]).resolve context =
      Reference.value context reference >>= fun value => formatValues context.tree [value] := by
  rw [Expression.resolve, termValues, termValues]
  cases Reference.value context reference with
  | ok value => rfl
  | error cause => simp only [required, Bool.false_and, Bool.false_eq_true, if_false, bind, Except.bind]

theorem format_single {tree : Tree} {value : Value} (known : value.Known tree) :
    ∃ text, formatValues tree [value] = .ok text := by
  obtain ⟨text, rendered⟩ := Value.render_known known
  refine ⟨stripNewlines (String.join [text]), ?_⟩
  rw [formatValues, List.mapM_cons, rendered]
  rfl

/-- A chain of calls on a captured node, all arguments of which resolve, fails exactly where the
node has no entity and the first call that a node answers asks for it. A node with an entity has an
answer to every chain. -/
theorem chain_fails_iff_first_asks_unmapped {name : String} {node : NodeId} {calls : List DotCall}
    (bound : context.captures.find? name = some node)
    (issued : context.tree.contains node = true) (resolve : ArgumentsResolve context calls)
    (source : String) :
    let chain := Expression.mk source [.reference (.mk name false calls)]
    (chain.resolve context = .error (.unmappedNode name) ↔
      context.entityOf? node = none ∧ firstAnswered calls = some "node") ∧
    ((∃ text, chain.resolve context = .ok text) ↔
      ¬(context.entityOf? node = none ∧ firstAnswered calls = some "node")) ∧
    (∀ entity, context.entityOf? node = some entity → ∃ text, chain.resolve context = .ok text) := by
  intro chain
  have resolved : chain.resolve context =
      applyCalls context name (.node node) calls >>= fun value =>
        formatValues context.tree [value] := by
    refine (resolve_single source rfl).trans ?_
    rw [Reference.value, MatchContext.lookup, bound]
    rfl
  rw [resolved]
  rcases apply_calls_node issued name resolve with
    ⟨asks, failed⟩ | ⟨answered, final, ends, known⟩
  · rw [failed]
    refine ⟨iff_of_true rfl asks, iff_of_false nofun (not_not_intro asks), ?_⟩
    intro entity mapped
    rw [asks.1] at mapped
    cases mapped
  · obtain ⟨text, formatted⟩ := format_single known
    have whole : (applyCalls context name (.node node) calls >>= fun value =>
        formatValues context.tree [value]) = .ok text := by
      rw [ends]
      exact formatted
    rw [whole]
    exact ⟨iff_of_false nofun answered, iff_of_true ⟨text, rfl⟩ answered, fun _ _ => ⟨text, rfl⟩⟩

/-- Nothing answers `last` on a function, nor a call that does not exist, so it is still the function
whose entity is asked for; a piece of its text is not asked for any. -/
theorem unmapped_function_fails_unless_split :
    (∃ expression, Expression.parse "@x.last.name.node.node" = .ok expression ∧
      expression.resolve functionSite = .error (.unmappedNode "x")) ∧
    ∃ expression text, Expression.parse "@x.split('(').node.last" = .ok expression ∧
      expression.resolve functionSite = .ok text := by
  have silent : ∀ names : List String,
      ArgumentsResolve functionSite (names.map fun name => .mk name []) := by
    intro names call listed argument given
    obtain ⟨name, _, rfl⟩ := List.mem_map.1 listed
    cases given
  have pieces : ArgumentsResolve functionSite
      [.mk "split" [.mk "'('" [.literal "("]], .mk "node" [], .mk "last" []] := by
    refine List.forall_mem_cons.2 ⟨?_, silent ["node", "last"]⟩
    intro argument given
    rw [List.mem_singleton.1 given]
    exact ⟨_, resolve_literal _ _ _⟩
  have bound : functionSite.captures.find? "x" = some 0 := rfl
  constructor
  · obtain ⟨fails, _⟩ := chain_fails_iff_first_asks_unmapped bound rfl
      (silent ["last", "name", "node", "node"]) "@x.last.name.node.node"
    exact ⟨_, rfl, fails.2 ⟨rfl, by decide⟩⟩
  · obtain ⟨_, succeeds, _⟩ := chain_fails_iff_first_asks_unmapped bound rfl pieces
      "@x.split('(').node.last"
    obtain ⟨text, resolved⟩ := succeeds.2 fun asks => absurd asks.2 (by decide)
    exact ⟨_, text, rfl, resolved⟩

end SyntaxGraph
