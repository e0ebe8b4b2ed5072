import SyntaxGraph.Engine.Search

/-!
Running the converters of all matches in a forest. A converter that lacks a capture, or the entity
of a captured node, is skipped. A missing enclosing match and an unknown kind end the run, and the
builder keeps what was done before.
-/

set_option autoImplicit false

namespace SyntaxGraph

structure ExecutionStats where
  matched : Nat
  executed : Nat
  /-- Held back by predicates, or by something missing. -/
  skipped : Nat
  entitiesAdded : Nat
  edgesAdded : Nat
deriving DecidableEq, Repr, Inhabited

namespace ExecutionStats

def zero : ExecutionStats := ⟨0, 0, 0, 0, 0⟩

def add (left right : ExecutionStats) : ExecutionStats :=
  ⟨left.matched + right.matched, left.executed + right.executed, left.skipped + right.skipped,
    left.entitiesAdded + right.entitiesAdded, left.edgesAdded + right.edgesAdded⟩

end ExecutionStats

/-- A converter of a pattern failed for a reason that it cannot be skipped for. -/
structure EngineError where
  pattern : Nat
  converter : Nat
  cause : ResolveError
deriving DecidableEq, Repr

def EngineError.message (error : EngineError) : String :=
  s!"converter {error.converter} of pattern {error.pattern} failed: " ++ error.cause.message

structure RunState where
  progress : Progress
  stats : ExecutionStats
deriving DecidableEq, Inhabited

abbrev Run := ExceptT EngineError (StateM RunState)

namespace Run

def count (change : ExecutionStats → ExecutionStats) : Run Unit :=
  modify fun state => { state with stats := change state.stats }

def countExecuted : Run Unit := count fun stats => { stats with executed := stats.executed + 1 }

def countSkipped : Run Unit := count fun stats => { stats with skipped := stats.skipped + 1 }

/-- Runs a conversion on the progress, which it may change even when it fails. -/
def attempt {Result : Type} (conversion : Conversion Result) :
    Run (Except ResolveError Result) := do
  let state ← get
  let (result, progress) := conversion.run.run state.progress
  set { state with progress := progress }
  return result

def convert (site : MatchSite) (pattern : Nat) (converter : Converter × Nat) : Run Unit := do
  match ← attempt (converter.1.execute site) with
  | .ok true => countExecuted
  | .ok false => countSkipped
  | .error cause =>
      if cause.isAbsence && !cause.isMissingAncestor then
        countSkipped
        let _ ← attempt (Conversion.report (.converterSkipped pattern converter.2 cause))
      else throw ⟨pattern, converter.2, cause⟩

def convertAll (site : MatchSite) (pattern : Nat) : List (Converter × Nat) → Run Unit
  | [] => pure ()
  | converter :: rest => do
      convert site pattern converter
      convertAll site pattern rest

def convertersOf (patterns : PatternSet) (pattern : Nat) : List (Converter × Nat) :=
  ((patterns[pattern]?.map (·.converters)).getD []).zipIdx

def executeMatch (patterns : PatternSet) (tree : Tree) (ancestors : List NodeId) (found : Match) :
    Run Unit := do
  count fun stats => { stats with matched := stats.matched + 1 }
  convertAll ⟨tree, found.start, found.captures, ancestors⟩ found.pattern
    (convertersOf patterns found.pattern)

mutual

def executeNode (patterns : PatternSet) (tree : Tree) (ancestors : List NodeId) :
    MatchNode → Run Unit
  | .mk found children => do
      executeMatch patterns tree ancestors found
      executeForest patterns tree (ancestors ++ [found.start]) children

def executeForest (patterns : PatternSet) (tree : Tree) (ancestors : List NodeId) :
    List MatchNode → Run Unit
  | [] => pure ()
  | node :: rest => do
      executeNode patterns tree ancestors node
      executeForest patterns tree ancestors rest

end

end Run

/-- Executes a forest on a builder. The result holds the statistics or the failure, and the
progress in both cases. -/
def execute (patterns : PatternSet) (tree : Tree) (forest : List MatchNode) (progress : Progress) :
    Except EngineError ExecutionStats × Progress :=
  let before := progress.builder.graph
  let (result, state) := (Run.executeForest patterns tree [] forest).run.run ⟨progress, .zero⟩
  let after := state.progress.builder.graph
  let stats := { state.stats with
    entitiesAdded := after.entities.length - before.entities.length
    edgesAdded := after.edges.length - before.edges.length }
  (result.map fun _ => stats, state.progress)

def runEngine (patterns : PatternSet) (tree : Tree) (builder : GraphBuilder) :
    Except EngineError ExecutionStats × Progress :=
  let (forest, events) := SearchInput.search ⟨patterns, tree, some builder⟩
  execute patterns tree forest ⟨builder, events⟩

end SyntaxGraph
