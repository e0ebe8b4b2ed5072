import SyntaxGraph.Proofs.Tree.WorkQueue
import SyntaxGraph.Tree.Stats

/-!
Evaluation from the leaves upwards as a fold. The queue settles an order with children before
parents, whatever the transform; the run applies the transform along that order up to the first
failure. If a node's value comes from the values of its children alone, any such order leads to the
values of the recursive evaluation.
-/

set_option autoImplicit false

namespace SyntaxGraph

variable {State Output Summary : Type}

namespace Tree

def noValues (tree : Tree) : NodeValues Output := Array.replicate tree.size none

/-- Applies a transform to the nodes of a list in turn, up to the first failure. -/
def applyAlong (tree : Tree) (transform : Transform State Output Summary) :
    List NodeId → NodeValues Output → State → Except ProcessingError (NodeValues Output) × State
  | [], values, state => (.ok values, state)
  | id :: later, values, state =>
      match transform.transform tree id values state with
      | (.error error, state) => (.error error, state)
      | (.ok value, state) =>
          tree.applyAlong transform later (values.setIfInBounds id (some value)) state

/-- The value of a node by recursion, from the values of its children in order. -/
def evaluate (tree : Tree) (value : NodeId → List Output → Except ProcessingError Output) :
    NodeId → Except ProcessingError Output :=
  tree.fold (.error .emptyTree) fun node below => do value node (← below.mapM id)

def evaluated (tree : Tree) (value : NodeId → List Output → Except ProcessingError Output)
    (node : NodeId) : Option Output :=
  if node ∈ tree.preorder then (tree.evaluate value node).toOption else none

end Tree

/-- The transform looks at the node and at the values of its children and at nothing else. -/
def Transform.Computes (transform : Transform State Output Summary) (tree : Tree)
    (value : NodeId → List Output → Except ProcessingError Output) : Prop :=
  ∀ id values state below, (tree.children id).map (NodeValues.find? values) = below.map some →
    (transform.transform tree id values state).1 = value id below

namespace Tree

variable {tree : Tree} {transform : Transform State Output Summary}

/-- Where the counts fail, they fail behind the last application. -/
theorem process_queue_eq (bound : Nat) (queue : List NodeId) (counts : NodeValues Nat)
    (values : NodeValues Output) (state : State) :
    tree.processQueue transform bound queue counts values state =
      match tree.applyAlong transform (tree.visits bound queue counts) values state with
      | (.error error, after) => (.error (.refused error), after)
      | (.ok results, after) =>
          match tree.miscount? bound queue counts with
          | some failure => (.error failure, after)
          | none => (.ok results, after) := by
  induction bound generalizing queue counts values state with
  | zero => rfl
  | succ bound induction =>
      cases queue with
      | nil => rfl
      | cons id queue =>
          cases off : countOff counts (tree.parent? id) with
          | error failure =>
              rw [processQueue, visits, miscount?, off, applyAlong]
              rcases transform.transform tree id values state with ⟨outcome, after⟩
              cases outcome <;> rfl
          | ok left =>
              rw [processQueue, visits_counted off, miscount_counted off, off, applyAlong]
              rcases transform.transform tree id values state with ⟨outcome, after⟩
              cases outcome with
              | error error => rfl
              | ok value => exact induction _ _ _ _

theorem apply_along_append (earlier later : List NodeId) (values : NodeValues Output)
    (state : State) :
    tree.applyAlong transform (earlier ++ later) values state =
      match tree.applyAlong transform earlier values state with
      | (.error error, state) => (.error error, state)
      | (.ok values, state) => tree.applyAlong transform later values state := by
  induction earlier generalizing values state with
  | nil => rfl
  | cons id earlier induction =>
      rw [List.cons_append, applyAlong, applyAlong]
      rcases transform.transform tree id values state with ⟨outcome, after⟩
      cases outcome with
      | error error => rfl
      | ok value => exact induction _ _

theorem isSome_of_apply_along {order : List NodeId} {values results : NodeValues Output}
    {state after : State} (inside : ∀ node ∈ order, node < values.size)
    (succeeds : tree.applyAlong transform order values state = (.ok results, after))
    (node : NodeId) :
    (NodeValues.find? results node).isSome ↔
      (NodeValues.find? values node).isSome ∨ node ∈ order := by
  induction order generalizing values state with
  | nil =>
      obtain ⟨same, -⟩ := Prod.mk.inj succeeds
      cases same
      simp
  | cons id order induction =>
      rw [applyAlong] at succeeds
      rcases applied : transform.transform tree id values state with ⟨outcome, between⟩
      rw [applied] at succeeds
      cases outcome with
      | error error => cases (Prod.mk.inj succeeds).1
      | ok value =>
          have idInside := inside id (by simp)
          rw [induction (fun node member => by simpa using inside node (by simp [member])) succeeds,
            NodeValues.find?_set]
          by_cases same : node = id
          · simp [same, idInside]
          · simp [same]

-- Runs along an order

/-- What evaluating the tree comes to once the order of its nodes is settled. A node is reached with
the values of exactly those before it, its children among them. The first failure is the result, and
nothing comes after it. Otherwise every reachable node has a value, and the summary is taken of
these. -/
structure FoldsAlong (tree : Tree) (order : List NodeId) (transform : Transform State Output Summary)
    (state : State) : Prop where
  reached_with : ∀ earlier id later values between, order = earlier ++ id :: later →
    tree.applyAlong transform earlier tree.noValues state = (.ok values, between) →
      (∀ node, (NodeValues.find? values node).isSome ↔ node ∈ earlier) ∧
        ∀ child ∈ tree.children id, (NodeValues.find? values child).isSome
  failure_stops : ∀ earlier id later values between error after, order = earlier ++ id :: later →
    tree.applyAlong transform earlier tree.noValues state = (.ok values, between) →
      transform.transform tree id values between = (.error error, after) →
        tree.applyAlong transform order tree.noValues state = (.error error, after) ∧
          tree.processBottomUp transform state = .error (.refused error)
  success_covers : ∀ values final,
    tree.applyAlong transform order tree.noValues state = (.ok values, final) →
      ∀ node, (NodeValues.find? values node).isSome ↔ node ∈ tree.preorder
  outcome : tree.processBottomUp transform state =
    if order = [] then .error (.refused .emptyTree)
    else match tree.applyAlong transform order tree.noValues state with
      | (.error error, _) => .error (.refused error)
      | (.ok values, final) => (transform.finalize tree values final).mapError .refused

theorem isSome_of_apply_from_nothing {order : List NodeId} {values : NodeValues Output}
    {state after : State} (inside : ∀ node ∈ order, node < tree.size)
    (succeeds : tree.applyAlong transform order tree.noValues state = (.ok values, after))
    (node : NodeId) : (NodeValues.find? values node).isSome ↔ node ∈ order := by
  rw [isSome_of_apply_along (by simpa [noValues] using inside) succeeds, noValues,
    NodeValues.find?_nothing]
  simp

theorem process_bottom_up_eq (consistent : tree.Consistent) (acyclic : tree.Acyclic)
    (transform : Transform State Output Summary) (state : State) :
    tree.processBottomUp transform state =
      if tree.queueOrder = [] then .error (.refused .emptyTree)
      else match tree.applyAlong transform tree.queueOrder tree.noValues state with
        | (.error error, _) => .error (.refused error)
        | (.ok values, final) =>
            match tree.queueMiscount? with
            | some failure => .error failure
            | none => (transform.finalize tree values final).mapError .refused := by
  have sameNodes : ∀ node, node ∈ tree.queueOrder ↔ node ∈ tree.topologicalOrder := by
    intro node
    rw [(queue_works_off consistent acyclic).children_first.mem_iff,
      (topological_order_perm consistent acyclic).mem_iff]
  have bothEmpty : tree.topologicalOrder = [] ↔ tree.queueOrder = [] := by
    simp [List.eq_nil_iff_forall_not_mem, sameNodes]
  simp only [processBottomUp, processOrdered, List.isEmpty_iff, bothEmpty, process_queue_eq]
  refine if_congr Iff.rfl rfl ?_
  simp only [queueOrder, noValues, queueMiscount?]
  generalize tree.applyAlong transform _ _ state = run
  generalize tree.miscount? _ _ _ = miscount
  obtain ⟨outcome, after⟩ := run
  cases outcome with
  | error error => rfl
  | ok values => cases miscount <;> rfl

theorem process_bottom_up_apart (consistent : tree.Consistent) (acyclic : tree.Acyclic)
    (apart : tree.RootApart) (transform : Transform State Output Summary) (state : State) :
    tree.processBottomUp transform state =
      if tree.queueOrder = [] then .error (.refused .emptyTree)
      else match tree.applyAlong transform tree.queueOrder tree.noValues state with
        | (.error error, _) => .error (.refused error)
        | (.ok values, final) => (transform.finalize tree values final).mapError .refused := by
  have counted : tree.queueMiscount? = none := by
    refine Option.eq_none_iff_forall_ne_some.2 fun failure fails => ?_
    obtain ⟨parent, below, -⟩ := ((queue_works_off consistent acyclic).miscount_iff failure).1 fails
    exact apart parent below
  rw [process_bottom_up_eq consistent acyclic, counted]

theorem folds_along_queue_order (consistent : tree.Consistent) (acyclic : tree.Acyclic)
    (apart : tree.RootApart) (transform : Transform State Output Summary) (state : State) :
    tree.FoldsAlong tree.queueOrder transform state := by
  have first := (queue_works_off consistent acyclic).children_first
  have outcome := process_bottom_up_apart consistent acyclic apart transform state
  have inside : ∀ node ∈ tree.queueOrder, node < tree.size := fun node member =>
    known_of_mem_preorder consistent acyclic ((first.mem_iff node).1 member)
  refine ⟨?_, ?_, ?_, outcome⟩
  · intro earlier id later values between split succeeds
    have present := isSome_of_apply_from_nothing
      (fun node member => inside node (by simp [split, member])) succeeds
    refine ⟨present, fun child listed => ?_⟩
    exact (present child).2 (first.children_before earlier id later split child listed)
  · intro earlier id later values between error after split reached fails
    have stopped : tree.applyAlong transform tree.queueOrder tree.noValues state =
        (.error error, after) := by
      rw [split, apply_along_append, reached]
      simp only [applyAlong, fails]
    refine ⟨stopped, ?_⟩
    rw [outcome, stopped, if_neg (by simp [split])]
  · intro values final succeeds node
    rw [isSome_of_apply_from_nothing inside succeeds, first.mem_iff]

-- Values that come from the children's values

theorem mapM_ok (results : List Output) :
    (results.map Except.ok).mapM id = (.ok results : Except ProcessingError (List Output)) := by
  induction results with
  | nil => rfl
  | cons result results induction =>
      rw [List.map_cons, List.mapM_cons, induction]
      rfl

theorem evaluate_unfold (consistent : tree.Consistent) (acyclic : tree.Acyclic) {node : NodeId}
    (known : tree.contains node = true)
    (value : NodeId → List Output → Except ProcessingError Output) :
    tree.evaluate value node =
      (do value node (← ((tree.children node).map (tree.evaluate value)).mapM id)) :=
  fold_unfold consistent acyclic known _ _

structure HoldsValues (tree : Tree)
    (value : NodeId → List Output → Except ProcessingError Output) (done : List NodeId)
    (values : NodeValues Output) : Prop where
  sized : values.size = tree.size
  of_done : ∀ node ∈ done, ∃ result, tree.evaluate value node = .ok result ∧
    NodeValues.find? values node = some result
  of_others : ∀ node, node ∉ done → NodeValues.find? values node = none

theorem HoldsValues.of_children
    {value : NodeId → List Output → Except ProcessingError Output} {done children : List NodeId}
    {values : NodeValues Output} (holds : tree.HoldsValues value done values)
    (finished : ∀ child ∈ children, child ∈ done) :
    ∃ below : List Output, children.map (tree.evaluate value) = below.map Except.ok ∧
      children.map (NodeValues.find? values) = below.map some := by
  induction children with
  | nil => exact ⟨[], rfl, rfl⟩
  | cons child children induction =>
      obtain ⟨below, evaluated, found⟩ := induction fun other member =>
        finished other (List.mem_cons_of_mem _ member)
      obtain ⟨result, childEvaluated, childFound⟩ :=
        holds.of_done child (finished child List.mem_cons_self)
      refine ⟨result :: below, ?_, ?_⟩
      · rw [List.map_cons, List.map_cons, childEvaluated, evaluated]
      · rw [List.map_cons, List.map_cons, childFound, found]

theorem HoldsValues.transform_eq (consistent : tree.Consistent) (acyclic : tree.Acyclic)
    {value : NodeId → List Output → Except ProcessingError Output}
    (computes : transform.Computes tree value) {done : List NodeId} {values : NodeValues Output}
    (holds : tree.HoldsValues value done values) {id : NodeId} (known : tree.contains id = true)
    (finished : ∀ child ∈ tree.children id, child ∈ done) (state : State) :
    (transform.transform tree id values state).1 = tree.evaluate value id := by
  obtain ⟨below, evaluated, found⟩ := holds.of_children finished
  rw [computes id values state below found, evaluate_unfold consistent acyclic known, evaluated,
    mapM_ok]
  rfl

theorem HoldsValues.insert {value : NodeId → List Output → Except ProcessingError Output}
    {done : List NodeId} {values : NodeValues Output} (holds : tree.HoldsValues value done values)
    {id : NodeId} (known : tree.contains id = true) {result : Output}
    (evaluated : tree.evaluate value id = .ok result) :
    tree.HoldsValues value (done ++ [id]) (values.setIfInBounds id (some result)) := by
  have inside : id < values.size := by
    rw [holds.sized]
    exact of_decide_eq_true known
  refine ⟨by simpa using holds.sized, ?_, ?_⟩
  · intro node member
    rw [NodeValues.find?_set]
    by_cases same : node = id
    · simp [same, inside, evaluated]
    · have earlier : node ∈ done := by simpa [same] using member
      simpa [same] using holds.of_done node earlier
  · intro node outside
    simp only [List.mem_append, List.mem_singleton, not_or] at outside
    rw [NodeValues.find?_set, if_neg (fun both => outside.2 both.1)]
    exact holds.of_others node outside.1

/-- Along any order with children first, a run yields the recursive values, and it fails only if one
of these does. -/
theorem HoldsValues.apply_along (consistent : tree.Consistent) (acyclic : tree.Acyclic)
    {value : NodeId → List Output → Except ProcessingError Output}
    (computes : transform.Computes tree value) {order : List NodeId}
    (first : tree.ChildrenFirst order) (done later : List NodeId) (split : order = done ++ later)
    {values : NodeValues Output} (holds : tree.HoldsValues value done values) (state : State) :
    match tree.applyAlong transform later values state with
    | (.ok results, _) => tree.HoldsValues value order results
    | (.error error, _) => ∃ node ∈ order, tree.evaluate value node = .error error := by
  induction later generalizing done values state with
  | nil =>
      rw [applyAlong, split, List.append_nil]
      exact holds
  | cons id later induction =>
      have member : id ∈ order := by simp [split]
      have known : tree.contains id = true :=
        decide_eq_true (known_of_mem_preorder consistent acyclic ((first.mem_iff id).1 member))
      have same := holds.transform_eq consistent acyclic computes known
        (first.children_before done id later split) state
      rw [applyAlong]
      rcases applied : transform.transform tree id values state with ⟨outcome, after⟩
      rw [applied] at same
      cases outcome with
      | error error => exact ⟨id, member, same.symm⟩
      | ok result =>
          exact induction (done ++ [id]) (by rw [split, List.append_assoc, List.singleton_append])
            (holds.insert known same.symm) after

/-- With a transform that computes values from children's values, a run along any order with
children first ends in the recursive values of all reachable nodes, and it comes to that end exactly
if each of these is defined. -/
theorem any_order_evaluates (consistent : tree.Consistent) (acyclic : tree.Acyclic)
    {value : NodeId → List Output → Except ProcessingError Output}
    (computes : transform.Computes tree value) {order : List NodeId}
    (first : tree.ChildrenFirst order) (state : State) :
    (∀ values final, tree.applyAlong transform order tree.noValues state = (.ok values, final) →
      NodeValues.find? values = tree.evaluated value) ∧
    ((∃ values final, tree.applyAlong transform order tree.noValues state = (.ok values, final)) ↔
      ∀ node ∈ tree.preorder, ∃ result, tree.evaluate value node = .ok result) := by
  have start : tree.HoldsValues value [] (tree.noValues : NodeValues Output) := by
    exact ⟨by simp [noValues], by simp, fun node _ => NodeValues.find?_nothing tree.size node⟩
  have run := start.apply_along consistent acyclic computes first [] order rfl state
  rcases ran : tree.applyAlong transform order tree.noValues state with ⟨outcome, after⟩
  rw [ran] at run
  cases outcome with
  | error error =>
      obtain ⟨node, member, fails⟩ := run
      refine ⟨by simp, ⟨by simp, fun defined => ?_⟩⟩
      obtain ⟨result, evaluated⟩ := defined node ((first.mem_iff node).1 member)
      rw [fails] at evaluated
      cases evaluated
  | ok results =>
      refine ⟨?_, fun _ node member => ?_, fun _ => ⟨results, after, rfl⟩⟩
      · intro values final same
        obtain ⟨sameValues, -⟩ := Prod.mk.inj same
        rw [← Except.ok.inj sameValues]
        funext node
        by_cases member : node ∈ order
        · obtain ⟨result, evaluated, found⟩ := run.of_done node member
          rw [Tree.evaluated, if_pos ((first.mem_iff node).1 member), found, evaluated]
          rfl
        · rw [Tree.evaluated, if_neg (fun reached => member ((first.mem_iff node).2 reached))]
          exact run.of_others node member
      · obtain ⟨result, evaluated, -⟩ := run.of_done node ((first.mem_iff node).2 member)
        exact ⟨result, evaluated⟩

/-- Evaluation takes the nodes in one order with children first and the root last, whatever the
transform. Any other such order leads to the same values if these come from the children's. -/
theorem process_bottom_up_folds (consistent : tree.Consistent) (acyclic : tree.Acyclic)
    (apart : tree.RootApart) :
    ∃ order, tree.ChildrenFirst order ∧ order.getLast? = tree.root ∧
      (∀ {State Output Summary : Type} (transform : Transform State Output Summary)
        (state : State), tree.FoldsAlong order transform state) ∧
      ∀ {State Output Summary : Type} (transform : Transform State Output Summary)
        (value : NodeId → List Output → Except ProcessingError Output),
        transform.Computes tree value → ∀ any, tree.ChildrenFirst any → ∀ state,
          (∀ values final,
            tree.applyAlong transform any tree.noValues state = (.ok values, final) →
              NodeValues.find? values = tree.evaluated value) ∧
          ((∃ values final,
            tree.applyAlong transform any tree.noValues state = (.ok values, final)) ↔
              ∀ node ∈ tree.preorder, ∃ result, tree.evaluate value node = .ok result) := by
  have first := (queue_works_off consistent acyclic).children_first
  refine ⟨tree.queueOrder, first, first.getLast?_eq_root consistent acyclic, ?_, ?_⟩
  · exact fun transform state => folds_along_queue_order consistent acyclic apart transform state
  · exact fun transform value computes any anyFirst state =>
      any_order_evaluates consistent acyclic computes anyFirst state

/-- The root is a call whose recorded parent, a block, does not list it. -/
def detachedCall : Tree where
  nodes := #[⟨0, "block", "", ⟨0, 0, 1, 0⟩, none, []⟩, ⟨1, "call", "", ⟨0, 0, 1, 0⟩, some 0, [2, 3]⟩,
    ⟨2, "name", "f", ⟨0, 0, 1, 0⟩, some 1, []⟩, ⟨3, "list", "", ⟨0, 0, 1, 0⟩, some 1, [4]⟩,
    ⟨4, "word", "x", ⟨0, 0, 1, 0⟩, some 3, []⟩]
  root := some 1

theorem written_out_computes (atEnd : Bool) :
    (VisitPlan.transform ⟨none, atEnd⟩).Computes tree fun id below =>
      .ok (tree.rule id ++ "[" ++ " ".intercalate below ++ "]") := by
  intro id values visited below present
  have inner : (tree.children id).map (fun child => (NodeValues.find? values child).getD "") =
      below := by
    have mapped := congrArg (List.map fun found : Option String => found.getD "") present
    simpa [List.map_map, Function.comp_def] using mapped
  simp only [VisitPlan.transform, inner]
  rfl

theorem detached_call_folds :
    detachedCall.Consistent ∧ detachedCall.Acyclic ∧ detachedCall.RootApart ∧
      detachedCall.parent? 1 = some 0 ∧
      ∃ order, detachedCall.ChildrenFirst order ∧ order.getLast? = some 1 ∧
        (∀ {State Output Summary : Type} (transform : Transform State Output Summary)
          (state : State), detachedCall.FoldsAlong order transform state) ∧
        ∀ values final,
          detachedCall.applyAlong (VisitPlan.transform ⟨none, false⟩) order detachedCall.noValues
            [] = (.ok values, final) →
          NodeValues.find? values 1 = some "call[name[] list[word[]]]" := by
  have consistent : detachedCall.Consistent := consistent_of_arena (by decide) (by decide)
  have acyclic : detachedCall.Acyclic := acyclic_of_downward (by decide)
  have apart : detachedCall.RootApart := by
    rintro parent ⟨root, rooted, recorded, reaches⟩
    cases rooted
    cases recorded
    rcases Relation.ReflTransGen.cases_tail reaches with same | ⟨lister, -, listed⟩
    · cases same
    · cases consistent.parent_of_child lister 0 listed
  obtain ⟨order, first, last, folds, evaluates⟩ :=
    process_bottom_up_folds consistent acyclic apart
  refine ⟨consistent, acyclic, apart, rfl, order, first, last, folds, ?_⟩
  intro values final succeeds
  have written := (evaluates _ _ (written_out_computes false) order first []).1 values final succeeds
  rw [written]
  decide +kernel

end Tree

end SyntaxGraph
