import SyntaxGraph.Proofs.Expression.Reading
import SyntaxGraph.Proofs.Matching.Bindings

/-!
Special names and the captures that hide them. A form without capture names binds its node under the
node's rule, so a match may bind a special name that its pattern never declares: where a rule of the
grammar is called by that name. The name then stands for that node, and keeps its meaning in all
other matches.
-/

set_option autoImplicit false

namespace SyntaxGraph

/-- No form that is written in the pattern declares a special name. -/
def Pattern.SparesSpecialNames (pattern : Pattern) : Prop :=
  ∀ form : NodeForm, form.OccursIn pattern → ∀ name ∈ form.captures,
    MatchContext.isSpecial name = false

theorem Pattern.spares_node {rule : String} {captures : List String} {children : List Pattern}
    {forbidden : List String} {optional : Bool}
    (here : ∀ name ∈ captures, MatchContext.isSpecial name = false)
    (below : ∀ child ∈ children, child.SparesSpecialNames) :
    (Pattern.node rule captures children forbidden optional).SparesSpecialNames := by
  intro form occurs name declared
  cases occurs with
  | root same =>
      rw [same] at declared
      exact here name declared
  | child listed inside => exact below _ listed form inside name declared

theorem Tree.rule_of_bound_special {tree : Tree} {node : NodeId} {pattern : Pattern}
    {captures : Captures} (spares : pattern.SparesSpecialNames)
    (matched : captures ∈ tree.matchAt node pattern) {name : String} {bound : NodeId}
    (special : MatchContext.isSpecial name = true) (found : captures.find? name = some bound) :
    tree.rule bound = name ∧ Relation.ReflTransGen tree.IsChild node bound ∧
      ∃ form : NodeForm, form.OccursIn pattern ∧ form.captures = [] ∧ form.Binds tree name bound := by
  have reaches := Tree.reaches_of_match_at matched found
  obtain ⟨outer, listed, member⟩ := List.mem_flatMap.1 matched
  obtain ⟨form, within, binds⟩ :=
    (Tree.binds_of_match_form tree.size node outer captures member).of_find found
  have occurs := occurs_of_node_form pattern listed within
  rcases binds.named with declared | ⟨unnamed, same⟩
  · have spared := spares form occurs name declared
    rw [special] at spared
    cases spared
  · exact ⟨same.symm, reaches, form, occurs, unnamed, binds⟩

namespace MatchContext

variable {context : MatchContext}

theorem special_eq_node_iff {name : String} {node : NodeId} :
    context.special name = .ok (.node node) ↔ name = "self" ∧ node = context.start := by
  have notEntity : ∀ cause found, requireEntity cause found ≠ .ok (Value.node node) := by
    intro cause found
    cases found <;> nofun
  constructor
  · intro stands
    unfold special at stands
    split at stands
    · obtain ⟨found, _, required⟩ := exists_of_bind_ok stands
      exact absurd required (notEntity _ found)
    · cases stands
      exact ⟨rfl, rfl⟩
    · obtain ⟨found, _, required⟩ := exists_of_bind_ok stands
      exact absurd required (notEntity _ found)
    · obtain ⟨found, _, required⟩ := exists_of_bind_ok stands
      exact absurd required (notEntity _ _)
    · cases stands
  · rintro ⟨rfl, rfl⟩
    rfl

/-- Captures come first, and none but the start of a match is what a special name means anyway. -/
theorem lookup_eq_special_iff {name : String} :
    context.lookup name = context.special name ↔
      ∀ bound, context.captures.find? name = some bound → name = "self" ∧ bound = context.start := by
  unfold lookup
  cases found : context.captures.find? name with
  | none => simp
  | some node =>
      constructor
      · rintro kept bound ⟨⟩
        exact special_eq_node_iff.1 kept.symm
      · intro kept
        exact (special_eq_node_iff.2 (kept node rfl)).symm

theorem resolve_text_name {name : String} (isName : Expression.IsName name) :
    resolveText context ("@" ++ name) = do
      return stripNewlines (← (← context.lookup name).render context.tree) := by
  have joined : ∀ text : String, String.join [text] = text := by
    intro text
    simp [String.join]
  unfold resolveText
  rw [Expression.parse_name isName]
  simp only [Expression.resolve, termValues, Reference.value, applyCalls, Reference.isOptional,
    Bool.false_and]
  cases looked : context.lookup name with
  | error cause => simp [bind, Except.bind]
  | ok value =>
      simp only [bind, Except.bind, pure, Except.pure, formatValues, List.mapM_cons, List.mapM_nil]
      cases rendered : value.render context.tree with
      | error cause => rfl
      | ok text => simp only [joined]

theorem resolve_text_bound {name : String} (isName : Expression.IsName name) {bound : NodeId}
    (found : context.captures.find? name = some bound) :
    resolveText context ("@" ++ name) =
      match context.tree.text? bound with
      | some text => .ok (stripNewlines text)
      | none => .error (.unknownNode bound) := by
  rw [resolve_text_name isName, lookup, found]
  cases read : context.tree.text? bound <;>
    simp [Value.render, read, bind, Except.bind, pure, Except.pure]

theorem nearest_ancestor_found (known : context.tree.contains context.start = true) :
    ∃ nearest, context.nearestAncestor = .ok nearest := by
  unfold nearestAncestor
  split
  · rw [if_pos known]
    exact ⟨_, rfl⟩
  · exact ⟨none, rfl⟩

theorem resolve_self_iff {text : String} (known : context.tree.text? context.start = some text) :
    resolveText context "@self" = .ok (stripNewlines text) ↔
      ∀ bound, context.captures.find? "self" = some bound →
        (context.tree.text? bound).map stripNewlines = some (stripNewlines text) := by
  have isName : Expression.IsName "self" := by decide
  rw [show "@self" = "@" ++ "self" from rfl]
  cases found : context.captures.find? "self" with
  | none =>
      have kept := lookup_eq_special_iff.2 fun bound (captured : _ = some bound) => by
        rw [found] at captured
        cases captured
      rw [resolve_text_name isName, kept]
      simp [special, Value.render, known, bind, Except.bind, pure, Except.pure]
  | some node =>
      rw [resolve_text_bound isName found]
      cases read : context.tree.text? node <;> simp [read]

def parentText : Option Entity → Except ResolveError String
  | some entity => .ok (stripNewlines entity.id)
  | none => .error (.missingAncestor "parent")

theorem resolve_parent_iff {nearest : Option Entity}
    (above : context.nearestAncestor = .ok nearest) :
    resolveText context "@parent" = parentText nearest ↔
      ∀ bound, context.captures.find? "parent" = some bound →
        ∃ entity, nearest = some entity ∧
          (context.tree.text? bound).map stripNewlines = some (stripNewlines entity.id) := by
  have isName : Expression.IsName "parent" := by decide
  rw [show "@parent" = "@" ++ "parent" from rfl]
  cases found : context.captures.find? "parent" with
  | none =>
      have kept := lookup_eq_special_iff.2 fun bound (captured : _ = some bound) => by
        rw [found] at captured
        cases captured
      rw [resolve_text_name isName, kept, special, above]
      cases nearest <;> simp [parentText, requireEntity, Value.render, bind, Except.bind, pure,
        Except.pure]
  | some node =>
      rw [resolve_text_bound isName found]
      cases nearest <;> cases read : context.tree.text? node <;> simp [parentText, read]

end MatchContext

/-- In a match of a pattern that declares no special name, a special name is bound only to a node
whose rule is called by it, and only by a form without capture names. It keeps its meaning exactly if
no other node than the start of the match is bound to it. So `@self` is the text of the start, and
`@parent` the id of the nearest enclosing entity or a missing ancestor where there is none, exactly
if what is bound to them, if anything, happens to read the same. -/
theorem special_names_yield_to_rules {tree : Tree} {node : NodeId} {pattern : Pattern}
    {captures : Captures} (known : tree.contains node = true)
    (spares : pattern.SparesSpecialNames) (matched : captures ∈ tree.matchAt node pattern)
    (ancestors : List NodeId) (builder : Option GraphBuilder) :
    let context : MatchContext := ⟨⟨tree, node, captures, ancestors⟩, builder⟩
    (∀ name bound, MatchContext.isSpecial name = true → captures.find? name = some bound →
      tree.rule bound = name ∧ Relation.ReflTransGen tree.IsChild node bound ∧
        ∃ form : NodeForm, form.OccursIn pattern ∧ form.captures = [] ∧
          form.Binds tree name bound) ∧
    (∀ name, MatchContext.isSpecial name = true →
      (context.lookup name = context.special name ↔
        ∀ bound, captures.find? name = some bound → name = "self" ∧ bound = node)) ∧
    (∃ text, tree.text? node = some text ∧
      (resolveText context "@self" = .ok (stripNewlines text) ↔
        ∀ bound, captures.find? "self" = some bound →
          (tree.text? bound).map stripNewlines = some (stripNewlines text))) ∧
    ∃ nearest, context.nearestAncestor = .ok nearest ∧
      (resolveText context "@parent" = MatchContext.parentText nearest ↔
        ∀ bound, captures.find? "parent" = some bound →
          ∃ entity, nearest = some entity ∧
            (tree.text? bound).map stripNewlines = some (stripNewlines entity.id)) := by
  intro context
  refine ⟨?_, ?_, ?_, ?_⟩
  · intro name bound special found
    exact Tree.rule_of_bound_special spares matched special found
  · intro name _
    exact MatchContext.lookup_eq_special_iff
  · obtain ⟨text, read⟩ : ∃ text, tree.text? node = some text := by
      obtain ⟨found, here⟩ := Tree.node_of_known known
      exact ⟨found.text, by rw [Tree.text?, here]; rfl⟩
    exact ⟨text, read, MatchContext.resolve_self_iff read⟩
  · obtain ⟨nearest, above⟩ : ∃ nearest, context.nearestAncestor = .ok nearest :=
      MatchContext.nearest_ancestor_found known
    exact ⟨nearest, above, MatchContext.resolve_parent_iff above⟩

/-- A receiver `&self`, whose last word has the rule `self` of its own. -/
def receiver : Tree :=
  let span : Span := ⟨0, 0, 1, 0⟩
  ⟨#[⟨0, "self_parameter", "&self", span, none, [1, 2]⟩, ⟨1, "", "&", span, some 0, []⟩,
    ⟨2, "self", "self", span, some 0, []⟩], some 0⟩

def receiverPattern : Pattern :=
  .node "self_parameter" [] [.node "self" [] [] [] false] [] false

def receiverCaptures : Captures :=
  (StringMap.empty.insert "self_parameter" 0).insert "self" 2

theorem receiver_pattern_spares : receiverPattern.SparesSpecialNames := by
  apply Pattern.spares_node (by simp)
  intro child listed
  rw [List.mem_singleton.1 listed]
  exact Pattern.spares_node (by simp) (by simp)

/-- `@self` is hidden by the word, while `@parent` is as it should be: a missing ancestor here. -/
theorem receiver_hides_start_only :
    let context : MatchContext := ⟨⟨receiver, 0, receiverCaptures, []⟩, none⟩
    receiver.contains 0 = true ∧ receiverPattern.SparesSpecialNames ∧
      receiverCaptures ∈ receiver.matchAt 0 receiverPattern ∧
        context.lookup "self" ≠ context.special "self" ∧
          resolveText context "@parent" = .error (.missingAncestor "parent") := by
  intro context
  have matched : receiverCaptures ∈ receiver.matchAt 0 receiverPattern := by decide +kernel
  obtain ⟨_, keeps, _, nearest, above, parent⟩ :=
    special_names_yield_to_rules rfl receiver_pattern_spares matched [] none
  refine ⟨rfl, receiver_pattern_spares, matched, ?_, ?_⟩
  · intro kept
    exact absurd ((keeps "self" rfl).1 kept 2 rfl).2 (by decide)
  · cases above
    exact parent.2 (by decide)

/-- The pattern declares no name at all, and yet `@self` is not the text of the start. -/
theorem receiver_start_hidden :
    receiverPattern.SparesSpecialNames ∧ receiverCaptures ∈ receiver.matchAt 0 receiverPattern ∧
      receiver.text? 0 = some "&self" ∧
        resolveText ⟨⟨receiver, 0, receiverCaptures, []⟩, none⟩ "@self" = .ok "self" :=
  ⟨receiver_pattern_spares, by decide +kernel, rfl, rfl⟩

end SyntaxGraph
