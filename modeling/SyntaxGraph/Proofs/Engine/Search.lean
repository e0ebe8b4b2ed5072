import SyntaxGraph.Proofs.Engine.Forest
import SyntaxGraph.Proofs.Tree.Walk

/-!
What a search accepts, and how it arranges it. A candidate is judged under the nodes above its own
that have an accepted match, a list which each node determines by itself; flattened, the forest is
the pre-order of the tree with the accepted candidates of every node in its place.
-/

set_option autoImplicit false

namespace SyntaxGraph

namespace SearchInput

variable (input : SearchInput)

/-- The candidates at a node that are accepted under some nodes above it, by patterns in their order
and then by matches in theirs. -/
def accepted (above : List NodeId) (node : NodeId) : List Match :=
  input.patterns.zipIdx.flatMap fun (entry, index) =>
    ((input.tree.matchAt node entry.pattern).map fun captures =>
      (⟨node, index, captures⟩ : Match)).filter fun candidate =>
        (input.judge above candidate entry.predicates).1

def extend (above : List NodeId) (node : NodeId) : List NodeId :=
  if (input.accepted above node).isEmpty then above else above ++ [node]

/-- The nodes above a node with an accepted match, the outermost first. -/
def enclosing (node : NodeId) : List NodeId := (input.tree.lineage node).foldl input.extend []

/-- The accepted matches at a node, each judged under the nodes that enclose it. -/
def acceptedHere (node : NodeId) : List Match := input.accepted (input.enclosing node) node

def lastPosition (node : NodeId) : Nat :=
  ((input.tree.preorder.takeWhile (· ≠ node)).flatMap input.acceptedHere).length +
    (input.acceptedHere node).length - 1

def parentPosition (node : NodeId) : Option Nat :=
  (input.enclosing node).getLast?.map input.lastPosition

def parentsHere (node : NodeId) : List (Option Nat) :=
  List.replicate (input.acceptedHere node).length (input.parentPosition node)

def IsLastAt (flat : List Match) (node : NodeId) (position : Nat) : Prop :=
  (∃ found, flat[position]? = some found ∧ found.start = node) ∧
    ∀ later found, position < later → flat[later]? = some found → found.start ≠ node

theorem accepted_at_matches (above : List NodeId) (node : NodeId) :
    (input.acceptedAt above node).1 = input.accepted above node := by
  simp only [acceptedAt, candidatesAt, accepted, List.map_flatMap, List.filterMap_flatMap,
    List.map_map]
  congr 1
  funext entry
  induction input.tree.matchAt node entry.1.pattern with
  | nil => rfl
  | cons captures rest induction =>
      simp only [List.map_cons, List.filterMap_cons, List.filter_cons, Function.comp_apply]
      rw [induction]
      cases (input.judge above ⟨node, entry.2, captures⟩ entry.1.predicates).1 <;> rfl

theorem start_of_accepted {above : List NodeId} {node : NodeId} {found : Match}
    (member : found ∈ input.accepted above node) : found.start = node := by
  simp only [accepted, List.mem_flatMap, List.mem_filter, List.mem_map] at member
  obtain ⟨_, _, ⟨_, _, same⟩, _⟩ := member
  rw [← same]

variable {input}

section Congruence

variable {other : SearchInput} (tree_eq : input.tree = other.tree)
  (accepted_eq : ∀ ancestors node,
    input.acceptedAt ancestors node = other.acceptedAt ancestors node)
include tree_eq accepted_eq

theorem search_from_congr (levels : Nat) (ancestors : List NodeId) (node : NodeId) :
    input.searchFrom levels ancestors node = other.searchFrom levels ancestors node := by
  induction levels generalizing ancestors node with
  | zero => rfl
  | succ levels induction =>
      have below : ∀ inner, input.searchFrom levels inner = other.searchFrom levels inner :=
        fun inner => funext (induction inner)
      rw [searchFrom, searchFrom, accepted_eq, tree_eq]
      simp only [below]

/-- A search is determined by its tree and by what is accepted at each node. -/
theorem search_congr : input.search = other.search := by
  rw [search, search, tree_eq]
  cases other.tree.root with
  | none => rfl
  | some root =>
      dsimp only
      rw [search_from_congr tree_eq accepted_eq]

end Congruence

theorem enclosing_root {root : NodeId} (rooted : input.tree.root = some root) :
    input.enclosing root = [] := by
  simp [enclosing, Tree.lineage, rooted]

theorem enclosing_child (consistent : input.tree.Consistent) (acyclic : input.tree.Acyclic)
    {root node child : NodeId} {above : List NodeId} (rooted : input.tree.root = some root)
    (descent : input.tree.Descent root above node) (listed : child ∈ input.tree.children node) :
    input.enclosing child = input.extend (input.enclosing node) node := by
  have here := Tree.lineage_of_descent consistent acyclic rooted descent
  have below := Tree.lineage_of_descent consistent acyclic rooted (descent.step listed)
  rw [enclosing, below, List.foldl_append, enclosing, here]
  rfl

theorem enclosing_filter (consistent : input.tree.Consistent) (acyclic : input.tree.Acyclic)
    {root node : NodeId} {above : List NodeId} (rooted : input.tree.root = some root)
    (descent : input.tree.Descent root above node) :
    input.enclosing node = above.filter fun passed => !(input.acceptedHere passed).isEmpty := by
  induction descent with
  | here => exact enclosing_root rooted
  | step descent listed induction =>
      rename_i above node child
      rw [enclosing_child consistent acyclic rooted descent listed, List.filter_append, ← induction]
      cases empty : (input.acceptedHere node).isEmpty with
      | true =>
          rw [acceptedHere] at empty
          simp [extend, acceptedHere, empty]
      | false =>
          rw [acceptedHere] at empty
          simp [extend, acceptedHere, empty]

theorem search_from_step (consistent : input.tree.Consistent) (acyclic : input.tree.Acyclic)
    {root node : NodeId} {above : List NodeId} (rooted : input.tree.root = some root)
    (descent : input.tree.Descent root above node) (levels : Nat) :
    (input.searchFrom (levels + 1) (input.enclosing node) node).1 =
      let below := (input.tree.children node).flatMap fun child =>
        (input.searchFrom levels (input.enclosing child) child).1
      if (input.acceptedHere node).isEmpty then below
      else MatchNode.hangUnderLast below (input.acceptedHere node) := by
  have below : ((input.tree.children node).map
        (input.searchFrom levels (input.extend (input.enclosing node) node))).flatMap (·.1) =
      (input.tree.children node).flatMap fun child =>
        (input.searchFrom levels (input.enclosing child) child).1 := by
    rw [List.flatMap_map]
    apply List.flatMap_congr
    intro child listed
    rw [enclosing_child consistent acyclic rooted descent listed]
  simp only [searchFrom, accepted_at_matches]
  rw [← below]
  rfl

theorem flatten_search_from (consistent : input.tree.Consistent) (acyclic : input.tree.Acyclic)
    {root node : NodeId} {above : List NodeId} (rooted : input.tree.root = some root)
    (descent : input.tree.Descent root above node) (levels : Nat) :
    MatchNode.flattenAll (input.searchFrom levels (input.enclosing node) node).1 =
      (input.tree.subtreeWithin levels node).flatMap input.acceptedHere := by
  induction levels generalizing above node with
  | zero => rfl
  | succ levels induction =>
      have deeper : MatchNode.flattenAll ((input.tree.children node).flatMap fun child =>
            (input.searchFrom levels (input.enclosing child) child).1) =
          ((input.tree.children node).flatMap (input.tree.subtreeWithin levels)).flatMap
            input.acceptedHere := by
        rw [MatchNode.flatten_flat_map, List.flatMap_assoc]
        apply List.flatMap_congr
        intro child listed
        exact induction (descent.step listed)
      rw [search_from_step consistent acyclic rooted descent, Tree.subtreeWithin,
        List.flatMap_cons, ← deeper]
      split
      · rename_i empty
        rw [List.isEmpty_iff.1 empty, List.nil_append]
      · rename_i nonempty
        exact MatchNode.flatten_hang_under_last _ _ (by simpa using nonempty)

theorem flatten_search (consistent : input.tree.Consistent) (acyclic : input.tree.Acyclic) :
    MatchNode.flattenAll input.search.1 = input.tree.preorder.flatMap input.acceptedHere := by
  cases rooted : input.tree.root with
  | none => simp [search, rooted, Tree.preorder_of_rootless rooted, MatchNode.flattenAll]
  | some root =>
      have flattened := flatten_search_from consistent acyclic rooted
        (Tree.Descent.here : input.tree.Descent root [] root) input.tree.size
      rw [enclosing_root rooted] at flattened
      rw [search, rooted, Tree.preorder_eq_subtree consistent acyclic rooted]
      exact flattened

theorem take_until_of_nodup {before after : List NodeId} {node : NodeId}
    (nodup : (before ++ node :: after).Nodup) :
    (before ++ node :: after).takeWhile (· ≠ node) = before := by
  have clean : ∀ other ∈ before, decide (other ≠ node) = true := by
    intro other member
    have apart := (List.nodup_append.1 nodup).2.2 other member node (by simp)
    simpa using apart
  rw [List.takeWhile_append_of_pos clean]
  simp

theorem last_position_of_split {before after : List NodeId} {node : NodeId}
    (nodup : (before ++ node :: after).Nodup)
    (split : input.tree.preorder = before ++ node :: after) :
    input.lastPosition node =
      (before.flatMap input.acceptedHere).length + (input.acceptedHere node).length - 1 := by
  rw [lastPosition, split, take_until_of_nodup nodup]

theorem parents_siblings (levels : Nat) (parent : Option Nat) (siblings : List NodeId)
    (flattened : ∀ child ∈ siblings,
      MatchNode.flattenAll (input.searchFrom levels (input.enclosing child) child).1 =
        (input.tree.subtreeWithin levels child).flatMap input.acceptedHere)
    (each : ∀ child ∈ siblings, ∀ before after,
      input.tree.preorder = before ++ input.tree.subtreeWithin levels child ++ after →
        MatchNode.parentsFromAll parent (before.flatMap input.acceptedHere).length
            (input.searchFrom levels (input.enclosing child) child).1 =
          (input.tree.subtreeWithin levels child).flatMap input.parentsHere)
    (before after : List NodeId)
    (split : input.tree.preorder =
      before ++ siblings.flatMap (input.tree.subtreeWithin levels) ++ after) :
    MatchNode.parentsFromAll parent (before.flatMap input.acceptedHere).length
        (siblings.flatMap fun child => (input.searchFrom levels (input.enclosing child) child).1) =
      (siblings.flatMap (input.tree.subtreeWithin levels)).flatMap input.parentsHere := by
  induction siblings generalizing before with
  | nil => rfl
  | cons child siblings induction =>
      rw [List.flatMap_cons] at split
      have first := each child (by simp) before
        (siblings.flatMap (input.tree.subtreeWithin levels) ++ after)
        (by rw [split]; simp only [List.append_assoc])
      have rest := induction (fun later member => flattened later (by simp [member]))
        (fun later member => each later (by simp [member]))
        (before ++ input.tree.subtreeWithin levels child)
        (by rw [split]; simp only [List.append_assoc])
      rw [List.flatMap_append, List.length_append] at rest
      rw [List.flatMap_cons, List.flatMap_cons, List.flatMap_append, MatchNode.parents_append,
        first, flattened child (by simp), rest]

theorem parents_search_from (consistent : input.tree.Consistent) (acyclic : input.tree.Acyclic)
    {root node : NodeId} {above : List NodeId} (rooted : input.tree.root = some root)
    (descent : input.tree.Descent root above node) (levels : Nat) (before after : List NodeId)
    (split : input.tree.preorder = before ++ input.tree.subtreeWithin levels node ++ after) :
    MatchNode.parentsFromAll (input.parentPosition node)
        (before.flatMap input.acceptedHere).length
        (input.searchFrom levels (input.enclosing node) node).1 =
      (input.tree.subtreeWithin levels node).flatMap input.parentsHere := by
  induction levels generalizing above node before after with
  | zero => rfl
  | succ levels induction =>
      rw [Tree.subtreeWithin, List.append_assoc, List.cons_append] at split
      have nodup := Tree.preorder_nodup consistent acyclic
      rw [split] at nodup
      have position := last_position_of_split nodup split
      have siblings := parents_siblings levels
        (if (input.acceptedHere node).isEmpty then input.parentPosition node
          else some (input.lastPosition node))
        (input.tree.children node)
        (fun child listed => flatten_search_from consistent acyclic rooted (descent.step listed) _)
        (by
          intro child listed earlier later splitAgain
          have inherited : (if (input.acceptedHere node).isEmpty then input.parentPosition node
              else some (input.lastPosition node)) = input.parentPosition child := by
            rw [parentPosition, parentPosition,
              enclosing_child consistent acyclic rooted descent listed, extend, ← acceptedHere]
            split <;> simp
          rw [inherited]
          exact induction (descent.step listed) earlier later splitAgain)
        (before ++ [node]) after (by rw [split]; simp only [List.append_assoc, List.cons_append,
          List.nil_append])
      rw [search_from_step consistent acyclic rooted descent, Tree.subtreeWithin,
        List.flatMap_cons, ← siblings]
      simp only [List.flatMap_append, List.flatMap_cons, List.flatMap_nil, List.append_nil,
        List.length_append]
      by_cases empty : (input.acceptedHere node).isEmpty = true
      · rw [if_pos empty, if_pos empty, parentsHere, List.isEmpty_iff.1 empty]
        rfl
      · rw [if_neg empty, if_neg empty, MatchNode.parents_hang_under_last _ _ _ _ (by simpa using empty),
          parentsHere, position]

theorem parents_of_flatten (nodes : List NodeId) :
    nodes.flatMap input.parentsHere = (nodes.flatMap input.acceptedHere).map
      fun found => input.parentPosition found.start := by
  rw [List.map_flatMap]
  apply List.flatMap_congr
  intro node _
  rw [parentsHere]
  refine (List.eq_replicate_iff.2 ⟨by simp, ?_⟩).symm
  intro parent member
  obtain ⟨found, foundMember, same⟩ := List.mem_map.1 member
  rw [← same, input.start_of_accepted foundMember]

theorem parents_search (consistent : input.tree.Consistent) (acyclic : input.tree.Acyclic) :
    MatchNode.parents input.search.1 = (MatchNode.flattenAll input.search.1).map
      fun found => input.parentPosition found.start := by
  rw [flatten_search consistent acyclic, ← parents_of_flatten]
  cases rooted : input.tree.root with
  | none => simp [search, rooted, Tree.preorder_of_rootless rooted, MatchNode.parents,
      MatchNode.parentsFromAll]
  | some root =>
      have whole := Tree.preorder_eq_subtree consistent acyclic rooted
      have positioned := parents_search_from consistent acyclic rooted
        (Tree.Descent.here : input.tree.Descent root [] root) input.tree.size [] []
        (by rw [whole, List.nil_append, List.append_nil]; rfl)
      rw [parentPosition, enclosing_root rooted] at positioned
      rw [search, rooted, whole]
      exact positioned

/-- The last match of a node is where its position says, since no node comes twice. -/
theorem is_last_at_last_position (consistent : input.tree.Consistent)
    (acyclic : input.tree.Acyclic) {node : NodeId} (visited : node ∈ input.tree.preorder)
    (nonempty : input.acceptedHere node ≠ []) :
    IsLastAt (input.tree.preorder.flatMap input.acceptedHere) node (input.lastPosition node) := by
  have nodup := Tree.preorder_nodup consistent acyclic
  obtain ⟨before, after, split⟩ := List.append_of_mem visited
  rw [split] at nodup
  have position := last_position_of_split nodup split
  have some_match : 0 < (input.acceptedHere node).length := List.length_pos_iff.2 nonempty
  rw [split, List.flatMap_append, List.flatMap_cons, position]
  constructor
  · refine ⟨(input.acceptedHere node).getLast nonempty, ?_,
      input.start_of_accepted (List.getLast_mem nonempty)⟩
    rw [List.getElem?_append_right (by omega), List.getElem?_append_left (by omega),
      show (before.flatMap input.acceptedHere).length + (input.acceptedHere node).length - 1 -
        (before.flatMap input.acceptedHere).length = (input.acceptedHere node).length - 1 by omega,
      ← List.getLast?_eq_getElem?, List.getLast?_eq_some_getLast]
  · intro later found behind listed same
    rw [List.getElem?_append_right (by omega), List.getElem?_append_right (by omega)] at listed
    obtain ⟨other, otherMember, foundMember⟩ := List.mem_flatMap.1 (List.mem_of_getElem? listed)
    have sameNode : other = node := (input.start_of_accepted foundMember).symm.trans same
    subst sameNode
    have separate := (List.nodup_cons.1 (List.nodup_append.1 nodup).2.1).1
    exact separate otherMember

theorem start_of_flatten (consistent : input.tree.Consistent) (acyclic : input.tree.Acyclic)
    {found : Match} (member : found ∈ MatchNode.flattenAll input.search.1) :
    found.start ∈ input.tree.preorder ∧ found ∈ input.acceptedHere found.start := by
  rw [flatten_search consistent acyclic] at member
  obtain ⟨node, visited, accepted⟩ := List.mem_flatMap.1 member
  rw [input.start_of_accepted accepted]
  exact ⟨visited, accepted⟩

/-- A node above a visited one encloses it exactly if some match of the forest starts there. -/
theorem enclosing_of_forest (consistent : input.tree.Consistent) (acyclic : input.tree.Acyclic)
    {root node : NodeId} {above : List NodeId} (rooted : input.tree.root = some root)
    (descent : input.tree.Descent root above node) :
    input.enclosing node = above.filter fun passed =>
      (MatchNode.flattenAll input.search.1).any fun found => found.start = passed := by
  rw [enclosing_filter consistent acyclic rooted descent]
  apply List.filter_congr
  intro passed member
  have visited : passed ∈ input.tree.preorder := by
    rw [Tree.preorder_eq_subtree consistent acyclic rooted, Tree.mem_subtree_iff consistent acyclic
      (consistent.root_known root rooted)]
    exact descent.top_reaches passed member
  rw [Bool.eq_iff_iff, List.any_eq_true]
  constructor
  · intro nonempty
    obtain ⟨found, accepted⟩ := List.exists_mem_of_ne_nil (input.acceptedHere passed)
      (by simpa using nonempty)
    refine ⟨found, ?_, by simpa using input.start_of_accepted accepted⟩
    rw [flatten_search consistent acyclic]
    exact List.mem_flatMap.2 ⟨passed, visited, accepted⟩
  · rintro ⟨found, listed, starts⟩
    have accepted := (start_of_flatten consistent acyclic listed).2
    rw [of_decide_eq_true starts] at accepted
    simpa using List.ne_nil_of_mem accepted

/-- The forest holds the accepted candidates and nothing else, in the pre-order of their nodes. A
candidate is judged under those nodes above its own, from the root down, at which a match of the
forest starts. The parent of a match is the last match at the nearest of these nodes; without such
a node the match is at the top. -/
theorem search_lists_accepted_candidates (input : SearchInput)
    (consistent : input.tree.Consistent) (acyclic : input.tree.Acyclic) :
    let flat := MatchNode.flattenAll input.search.1
    let parents := MatchNode.parents input.search.1
    (flat = input.tree.preorder.flatMap fun node =>
      input.patterns.zipIdx.flatMap fun (entry, index) =>
        ((input.tree.matchAt node entry.pattern).map fun captures =>
          (⟨node, index, captures⟩ : Match)).filter fun candidate =>
            (input.judge (input.enclosing node) candidate entry.predicates).1) ∧
    (∀ node ∈ input.tree.preorder,
      (∃ root, input.tree.root = some root ∧
        input.tree.Descent root (input.tree.lineage node) node) ∧
      input.enclosing node = (input.tree.lineage node).filter fun passed =>
        flat.any fun found => found.start = passed) ∧
    ∀ (position : Nat) (found : Match), flat[position]? = some found →
      (input.enclosing found.start = [] → parents[position]? = some none) ∧
      ∀ nearest, (input.enclosing found.start).getLast? = some nearest →
        ∃ parent, parents[position]? = some (some parent) ∧ IsLastAt flat nearest parent := by
  intro flat parents
  refine ⟨flatten_search consistent acyclic, ?_, ?_⟩
  · intro node visited
    cases rooted : input.tree.root with
    | none => simp [Tree.preorder_of_rootless rooted] at visited
    | some root =>
        obtain ⟨above, descent⟩ := (Tree.mem_preorder_iff consistent acyclic rooted).1 visited
        rw [Tree.lineage_of_descent consistent acyclic rooted descent]
        exact ⟨⟨root, rfl, descent⟩, enclosing_of_forest consistent acyclic rooted descent⟩
  · intro position found listed
    have parent : parents[position]? = some (input.parentPosition found.start) := by
      simp only [parents, parents_search consistent acyclic, List.getElem?_map]
      rw [show (MatchNode.flattenAll input.search.1)[position]? = some found from listed]
      rfl
    constructor
    · intro top
      rw [parent, parentPosition, top]
      rfl
    · intro nearest last
      refine ⟨input.lastPosition nearest, by rw [parent, parentPosition, last]; rfl, ?_⟩
      have visited := (start_of_flatten consistent acyclic (List.mem_of_getElem? listed)).1
      cases rooted : input.tree.root with
      | none => simp [Tree.preorder_of_rootless rooted] at visited
      | some root =>
          obtain ⟨above, descent⟩ := (Tree.mem_preorder_iff consistent acyclic rooted).1 visited
          have member := List.mem_of_getLast? last
          rw [enclosing_of_forest consistent acyclic rooted descent, List.mem_filter,
            List.any_eq_true] at member
          obtain ⟨_, other, otherListed, starts⟩ := member
          have accepted := start_of_flatten consistent acyclic otherListed
          rw [of_decide_eq_true starts] at accepted
          simp only [flat, flatten_search consistent acyclic]
          exact is_last_at_last_position consistent acyclic accepted.1
            (List.ne_nil_of_mem accepted.2)

def nestedInput : SearchInput :=
  let span : Span := ⟨0, 0, 1, 0⟩
  { patterns := [⟨.node "f" [] [.node "." ["x"] [] [] false] [] false, [], []⟩,
      ⟨.node "a" [] [] [] false, [.not (.isBound "x")], []⟩]
    tree := ⟨#[⟨0, "f", "", span, none, [1, 2]⟩, ⟨1, "a", "a", span, some 0, []⟩,
      ⟨2, "g", "", span, some 0, [3]⟩, ⟨3, "a", "a", span, some 2, []⟩], some 0⟩
    builder := none }

theorem nested_consistent : nestedInput.tree.Consistent :=
  Tree.consistent_of_arena (by decide) (by decide)

theorem nested_acyclic : nestedInput.tree.Acyclic := Tree.acyclic_of_downward (by decide)

theorem nested_match_hangs_under_last :
    nestedInput.tree.Consistent ∧ nestedInput.tree.Acyclic ∧
      (MatchNode.flattenAll nestedInput.search.1).map Match.start = [0, 0, 1, 3] ∧
      ∃ parent, (MatchNode.parents nestedInput.search.1)[3]? = some (some parent) ∧
        IsLastAt (MatchNode.flattenAll nestedInput.search.1) 0 parent := by
  refine ⟨nested_consistent, nested_acyclic, by decide, ?_⟩
  obtain ⟨_, _, placed⟩ :=
    search_lists_accepted_candidates nestedInput nested_consistent nested_acyclic
  exact (placed 3 ⟨3, 1, StringMap.empty.insert "a" 3⟩ rfl).2 0 rfl

end SearchInput

end SyntaxGraph
