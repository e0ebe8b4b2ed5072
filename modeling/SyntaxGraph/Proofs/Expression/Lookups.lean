import SyntaxGraph.Converter
import SyntaxGraph.Proofs.Outcome

/-!
What an expression looks up in a builder. Every reference in it, also one in an argument of a call,
looks up the value of its name, and those with a call for the entity of a node look that up as well.
Where two builders give the same answers to these questions, the expression resolves to the same in
both, whatever else their graphs hold.
-/

set_option autoImplicit false

namespace SyntaxGraph

mutual

def Expression.allReferences : Expression → List Reference
  | .mk _ terms => termReferences terms

def termReferences : List Term → List Reference
  | [] => []
  | .literal _ :: rest => termReferences rest
  | .reference reference :: rest => reference.allReferences ++ termReferences rest

def Reference.allReferences : Reference → List Reference
  | .mk name optional calls => .mk name optional calls :: callReferences calls

def callReferences : List DotCall → List Reference
  | [] => []
  | .mk _ arguments :: rest => argumentReferences arguments ++ callReferences rest

def argumentReferences : List Expression → List Reference
  | [] => []
  | expression :: rest => expression.allReferences ++ argumentReferences rest

end

def AsksForEntity (calls : List DotCall) : Prop := ∃ call ∈ calls, call.name = "node"

/-- A syntax node stands for the same id, or for none, in both builders. -/
def GraphBuilder.AgreeAt (left right : GraphBuilder) (node : NodeId) : Prop :=
  (left.entityOf? node).map (·.id) = (right.entityOf? node).map (·.id)

/-- Both builders give the same answers to what a reference looks up. -/
structure Reference.SeesAlike (site : MatchSite) (left right : GraphBuilder)
    (reference : Reference) : Prop where
  lookup_eq : (site.inGraph left).lookup reference.name =
    (site.inGraph right).lookup reference.name
  entity_eq : AsksForEntity reference.calls →
    ∀ node, (site.inGraph left).lookup reference.name = .ok (.node node) →
      left.AgreeAt right node

def Expression.SeesAlike (site : MatchSite) (left right : GraphBuilder)
    (expression : Expression) : Prop :=
  ∀ reference ∈ expression.allReferences, reference.SeesAlike site left right

variable {left right : GraphBuilder} (site : MatchSite)

/-- Where the entities of all nodes agree in some respect, so does the nearest one. -/
theorem nearest_among_agrees {View : Type} (view : Entity → View) (outermost : NodeId)
    (nodes : List NodeId)
    (same : ∀ node ∈ nodes, (left.entityOf? node).map view = (right.entityOf? node).map view) :
    (MatchContext.nearestAmong left outermost nodes).map view =
      (MatchContext.nearestAmong right outermost nodes).map view := by
  induction nodes with
  | nil => rfl
  | cons node rest induction =>
      have sameHere := same node List.mem_cons_self
      have later := induction fun other member => same other (List.mem_cons_of_mem _ member)
      rw [MatchContext.nearestAmong, MatchContext.nearestAmong]
      cases inLeft : left.entityOf? node with
      | some entity =>
          rw [inLeft] at sameHere
          obtain ⟨other, inRight, sameView⟩ := Option.map_eq_some_iff.1 sameHere.symm
          rw [inRight]
          exact congrArg some sameView.symm
      | none =>
          rw [inLeft] at sameHere
          rw [Option.map_eq_none_iff.1 sameHere.symm]
          dsimp only
          split
          · rfl
          · exact later

theorem nearest_ancestor_in_graph (builder : GraphBuilder) :
    (site.inGraph builder).nearestAncestor =
      match site.ancestors with
      | [] => .ok none
      | outermost :: _ =>
          if site.tree.contains site.start then
            .ok (MatchContext.nearestAmong builder outermost (site.tree.ancestors site.start))
          else .error (.unknownNode site.start) := by
  obtain ⟨tree, start, captures, ancestors⟩ := site
  cases ancestors <;> rfl

theorem enclosing_class_in_graph (builder : GraphBuilder) :
    (site.inGraph builder).enclosingClass =
      let walk := MatchContext.classUpwards builder.graph (builder.graph.entities.length + 2) []
      match builder.entityOf? site.start with
      | some entity => .ok (walk (some entity))
      | none => (site.inGraph builder).nearestAncestor >>= fun start => .ok (walk start) := by
  unfold MatchContext.enclosingClass
  show (match builder.entityOf? site.start with | some entity => _ | none => _) = _
  cases builder.entityOf? site.start <;> rfl

theorem nearest_ancestor_agrees {View Result : Type} (view : Entity → View)
    (same : ∀ node ∈ site.tree.ancestors site.start,
      (left.entityOf? node).map view = (right.entityOf? node).map view)
    (use : Option View → Except ResolveError Result) :
    ((site.inGraph left).nearestAncestor >>= fun found => use (found.map view)) =
      ((site.inGraph right).nearestAncestor >>= fun found => use (found.map view)) := by
  rw [nearest_ancestor_in_graph, nearest_ancestor_in_graph]
  cases site.ancestors with
  | nil => rfl
  | cons outermost inner =>
      by_cases known : site.tree.contains site.start = true
      · simp only [if_pos known]
        exact congrArg use (nearest_among_agrees view outermost _ same)
      · simp only [if_neg known]

/-- Names that no capture binds, apart from the two that follow edges, look at the syntax ancestors
of the match at most. -/
theorem special_agrees (name : String)
    (noEdges : name ≠ "enclosing_class" ∧ name ≠ "superclass")
    (same : name = "parent" →
      ∀ node ∈ site.tree.ancestors site.start, left.AgreeAt right node) :
    (site.inGraph left).special name = (site.inGraph right).special name := by
  unfold MatchContext.special
  split
  · have parent := nearest_ancestor_agrees site (·.id) (same rfl) fun found =>
      found.elim (.error (.missingAncestor "parent")) fun id => .ok (Value.entity id)
    have required : ∀ found : Option Entity,
        MatchContext.requireEntity (.missingAncestor "parent") found =
          (found.map (·.id)).elim (.error (.missingAncestor "parent")) fun id =>
            .ok (.entity id) := by
      intro found
      cases found <;> rfl
    simp only [required]
    exact parent
  · rfl
  · exact absurd rfl noEdges.1
  · exact absurd rfl noEdges.2
  · rfl

theorem lookup_in_graph (builder : GraphBuilder) (name : String) :
    (site.inGraph builder).lookup name =
      match site.captures.find? name with
      | some node => .ok (.node node)
      | none => (site.inGraph builder).special name := rfl

theorem lookup_agrees (name : String)
    (special : site.captures.find? name = none →
      (site.inGraph left).special name = (site.inGraph right).special name) :
    (site.inGraph left).lookup name = (site.inGraph right).lookup name := by
  rw [lookup_in_graph, lookup_in_graph]
  cases bound : site.captures.find? name with
  | some node => rfl
  | none => exact special bound

/-- No call yields a node but one that leaves the node alone. -/
theorem node_of_call_on_text {tree : Tree} {value : Value} {name : String}
    {arguments : List String} {node : NodeId}
    (called : callOnText tree value name arguments = .ok (.node node)) : value = .node node := by
  unfold callOnText at called
  split at called
  · rename_i call found
    obtain ⟨text, _, applied⟩ := exists_of_bind_ok called
    unfold textCall? at found
    split at found <;> cases found
    · dsimp only at applied
      split at applied <;> cases applied
    · cases applied
    · dsimp only at applied
      split at applied <;> cases applied
  · cases called
    rfl

theorem node_of_apply_call {context : MatchContext} {capture : String} {value : Value}
    {name : String} {arguments : List String} {node : NodeId}
    (called : applyCall context capture value name arguments = .ok (.node node)) :
    value = .node node := by
  unfold applyCall at called
  split at called
  · split at called
    · cases called
    · exact node_of_call_on_text called
  · split at called
    · split at called <;> cases called
    · exact node_of_call_on_text called
  · exact node_of_call_on_text called
  · exact node_of_call_on_text called

theorem apply_call_agrees (capture : String) (value : Value) (name : String)
    (arguments : List String)
    (same : name = "node" → ∀ node, value = .node node → left.AgreeAt right node) :
    applyCall (site.inGraph left) capture value name arguments =
      applyCall (site.inGraph right) capture value name arguments := by
  cases value with
  | text | list | entity => rfl
  | node node =>
      simp only [applyCall, MatchSite.inGraph, Option.bind_some]
      split
      · rename_i asks
        have sameHere := same asks node rfl
        unfold GraphBuilder.AgreeAt at sameHere
        cases inLeft : left.entityOf? node with
        | none =>
            rw [inLeft] at sameHere
            rw [Option.map_eq_none_iff.1 sameHere.symm]
        | some entity =>
            rw [inLeft] at sameHere
            obtain ⟨other, inRight, sameId⟩ := Option.map_eq_some_iff.1 sameHere.symm
            rw [inRight]
            simp only [sameId]
      · rfl

mutual

/-- An expression depends on a builder through what its references look up, and no further. -/
theorem Expression.SeesAlike.resolve_eq {site : MatchSite} (expression : Expression)
    (alike : expression.SeesAlike site left right) :
    expression.resolve (site.inGraph left) = expression.resolve (site.inGraph right) := by
  cases expression with
  | mk source terms =>
      unfold Expression.SeesAlike at alike
      rw [Expression.allReferences] at alike
      rw [Expression.resolve, Expression.resolve, term_values_agree terms alike]
      rfl

theorem term_values_agree {site : MatchSite} (terms : List Term)
    (alike : ∀ reference ∈ termReferences terms, reference.SeesAlike site left right) :
    termValues (site.inGraph left) terms = termValues (site.inGraph right) terms := by
  match terms with
  | [] => rw [termValues, termValues]
  | .literal text :: rest =>
      rw [termReferences] at alike
      rw [termValues, termValues, term_values_agree rest alike]
  | .reference reference :: rest =>
      rw [termReferences, List.forall_mem_append] at alike
      rw [termValues, termValues, reference_agrees reference alike.1,
        term_values_agree rest alike.2]

theorem reference_agrees {site : MatchSite} (reference : Reference)
    (alike : ∀ inner ∈ reference.allReferences, inner.SeesAlike site left right) :
    Reference.value (site.inGraph left) reference =
      Reference.value (site.inGraph right) reference := by
  cases reference with
  | mk name optional calls =>
      rw [Reference.allReferences, List.forall_mem_cons] at alike
      obtain ⟨here, nested⟩ := alike
      have sameValue : (site.inGraph left).lookup name = (site.inGraph right).lookup name :=
        here.lookup_eq
      have sameEntity : AsksForEntity calls → ∀ node,
          (site.inGraph left).lookup name = .ok (.node node) → left.AgreeAt right node :=
        here.entity_eq
      rw [Reference.value, Reference.value, ← sameValue]
      cases looked : (site.inGraph left).lookup name with
      | error cause => rfl
      | ok value =>
          apply apply_calls_agree name value calls _ nested
          intro asks node same
          exact sameEntity asks node (looked.trans (congrArg Except.ok same))

theorem apply_calls_agree {site : MatchSite} (capture : String) (value : Value)
    (calls : List DotCall)
    (same : AsksForEntity calls → ∀ node, value = .node node → left.AgreeAt right node)
    (alike : ∀ reference ∈ callReferences calls, reference.SeesAlike site left right) :
    applyCalls (site.inGraph left) capture value calls =
      applyCalls (site.inGraph right) capture value calls := by
  match calls with
  | [] => rw [applyCalls, applyCalls]
  | .mk name arguments :: rest =>
      rw [callReferences, List.forall_mem_append] at alike
      rw [applyCalls, applyCalls, resolve_all_agree arguments alike.1]
      cases resolveAll (site.inGraph right) arguments with
      | error cause => rfl
      | ok texts =>
          have sameCall := apply_call_agrees site capture value name texts
            fun asks => same ⟨_, List.mem_cons_self, asks⟩
          show (applyCall (site.inGraph left) capture value name texts >>= _) =
            (applyCall (site.inGraph right) capture value name texts >>= _)
          rw [← sameCall]
          cases called : applyCall (site.inGraph left) capture value name texts with
          | error cause => rfl
          | ok next =>
              apply apply_calls_agree capture next rest _ alike.2
              -- A later call that asks for an entity still does so of the node looked up first.
              rintro ⟨call, listed, asks⟩ node nextNode
              rw [nextNode] at called
              exact same ⟨call, List.mem_cons_of_mem _ listed, asks⟩ node
                (node_of_apply_call called)

theorem resolve_all_agree {site : MatchSite} (expressions : List Expression)
    (alike : ∀ reference ∈ argumentReferences expressions, reference.SeesAlike site left right) :
    resolveAll (site.inGraph left) expressions = resolveAll (site.inGraph right) expressions := by
  match expressions with
  | [] => rw [resolveAll, resolveAll]
  | expression :: rest =>
      rw [argumentReferences, List.forall_mem_append] at alike
      rw [resolveAll, resolveAll, Expression.SeesAlike.resolve_eq expression alike.1,
        resolve_all_agree rest alike.2]

end

end SyntaxGraph
