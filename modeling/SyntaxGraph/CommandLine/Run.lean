import SyntaxGraph.CommandLine.Command
import SyntaxGraph.CommandLine.Session
import SyntaxGraph.Graph.Document
import SyntaxGraph.Json.Printer

/-!
The command that builds a graph from source files. Every file gets a graph of its own, and these
are merged in the order of the files; a file that fails adds nothing.
-/

set_option autoImplicit false

namespace SyntaxGraph.CommandLine

inductive FileError where
  | source (error : SourceError)
  | engine (error : EngineError)
deriving DecidableEq, Repr

def processFile (patterns : PatternSet) (files : FileSystem) (grammar : Grammar)
    (forced : Option Language) (path : String) :
    Except FileError (EntityGraph × ExecutionStats) :=
  match readSource files grammar forced path with
  | .error error => .error (.source error)
  | .ok tree =>
      match runEngine patterns tree (GraphBuilder.empty.beginFile path) with
      | (.error error, _) => .error (.engine error)
      | (.ok stats, progress) => .ok (progress.builder.graph, stats)

structure RunReport where
  files : Nat
  failed : Nat
  graph : EntityGraph
  stats : ExecutionStats
deriving DecidableEq

namespace RunReport

def empty : RunReport := ⟨0, 0, .empty, .zero⟩

def add (report : RunReport) : Except FileError (EntityGraph × ExecutionStats) → RunReport
  | .error _ => { report with files := report.files + 1, failed := report.failed + 1 }
  | .ok (graph, stats) =>
      { report with
        files := report.files + 1
        graph := report.graph.merge graph
        stats := report.stats.add stats }

def countLabels (labels : List String) : StringMap Nat :=
  labels.foldl (fun counts label => counts.insert label ((counts.find? label).getD 0 + 1)) .empty

def padded (text : String) : String :=
  text ++ String.ofList (List.replicate (10 - text.length) ' ')

def breakdown (title : String) (labels : List String) : List String :=
  if labels.isEmpty then []
  else
    ["", title] ++ (countLabels labels).entries.map fun (label, count) =>
      "  " ++ padded label ++ s!" {count}"

def totals (report : RunReport) (output : Option String) : List String :=
  let graph := report.graph
  let stats := report.stats
  let dangling := (graph.entities.filter Entity.isDangling).length
  ["", "Run complete!"] ++
    (match output with
      | some path => ["  Output: " ++ quotedPath path]
      | none => []) ++
    [s!"  Files: {report.files} ({report.failed} failed)",
     s!"  Matches: {stats.matched}",
     s!"  Converters: {stats.executed} executed, {stats.skipped} skipped",
     s!"  Nodes: {graph.entities.length} ({dangling} dangling)",
     s!"  Edges: {graph.edges.length}"]

def summary (report : RunReport) (output : Option String) : List PrintedLine :=
  let kinds := breakdown "Node kinds" (report.graph.entities.map (·.kind.name))
  let types := breakdown "Edge types" (report.graph.edges.map (·.type.name))
  (report.totals output).map .text ++ [.elapsedTime] ++ (kinds ++ types).map .text

end RunReport

/-- The patterns of a run; there has to be a document that they come from. -/
def loadPatterns (engine : RegexEngine) (settings : Settings) (workspace : String) :
    Session PatternSet := do
  let paths := settings.documentPaths workspace
  if paths.isEmpty then
    Session.fail (.noDocumentsToRun (SettingsLoader.localPath workspace))
  Session.require .documents (PatternSet.ofPaths engine (← Session.files) paths)

/-- The files of a run, none of which is larger than the settings allow unless it is named. -/
def collectSources (settings : Settings) (forced : Option Language) (paths : List String) :
    Session (List String) := do
  let maxBytes ← Session.fitting settings.maxFileBytes?
  Session.require (fun error => .pathNotFound error.path)
    ((← Session.files).sources ⟨forced, maxBytes⟩ paths)

def runRun (engine : RegexEngine) (grammar : Grammar) (settings : Settings) (workspace : String)
    (options : RunOptions) : Session Unit := do
  let patterns ← loadPatterns engine settings workspace
  let forced ← Session.require id (forcedLanguage settings)
  let paths ← collectSources settings forced options.paths
  let files ← Session.files
  let report := (paths.map (processFile patterns files grammar forced)).foldl RunReport.add .empty
  let document := report.graph.toDocument.toJson.pretty
  if let some path := options.output then
    Session.write path document
  if options.json then
    Session.say document
  else
    Session.print (report.summary options.output)

end SyntaxGraph.CommandLine
