import SyntaxGraph.Graph.Basic
import SyntaxGraph.StringMap

/-!
A graph under construction: the graph, and what is remembered about the current file. Which syntax
node an entity came from is kept as a log of associations, the latest first, so that the latest one
counts in both directions.
-/

set_option autoImplicit false

namespace SyntaxGraph

abbrev ImportRecord := StringMap String

structure GraphBuilder where
  graph : EntityGraph
  file : String
  associations : List (NodeId × String)
  imports : List ImportRecord
deriving DecidableEq, Inhabited

namespace GraphBuilder

def onGraph (graph : EntityGraph) : GraphBuilder := ⟨graph, "", [], []⟩

def empty : GraphBuilder := onGraph .empty

def beginFile (builder : GraphBuilder) (file : String) : GraphBuilder :=
  ⟨builder.graph, file, [], []⟩

def associate (builder : GraphBuilder) (node : NodeId) (id : String) : GraphBuilder :=
  { builder with associations := (node, id) :: builder.associations }

def idOf? (builder : GraphBuilder) (node : NodeId) : Option String :=
  (builder.associations.find? fun entry => entry.1 = node).map (·.2)

def entityOf? (builder : GraphBuilder) (node : NodeId) : Option Entity :=
  (builder.idOf? node).bind builder.graph.entity?

def nodeOf? (builder : GraphBuilder) (id : String) : Option NodeId :=
  (builder.associations.find? fun entry => entry.2 = id).map (·.1)

def recordImport (builder : GraphBuilder) (record : ImportRecord) : GraphBuilder :=
  { builder with imports := builder.imports ++ [record] }

end GraphBuilder

end SyntaxGraph
