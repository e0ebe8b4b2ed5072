import SyntaxGraph.CommandLine.Check
import SyntaxGraph.CommandLine.Run
import SyntaxGraph.CommandLine.TreeListing

/-!
Executing a command line: the arguments are read, the settings of the workspace are loaded, and the
command runs on the files.
-/

set_option autoImplicit false

namespace SyntaxGraph.CommandLine

/-- What a command line depends on besides its arguments and the files. -/
structure Environment where
  /-- The directory that holds the global settings. -/
  home : Option String
  /-- The workspace where the arguments name none. -/
  workspace : Option String
  grammar : Grammar
  engine : RegexEngine

inductive Ending where
  | completed
  | failed (error : CommandError)
  | refused
  /-- A number did not fit into its machine word. -/
  | aborted
deriving DecidableEq, Repr

namespace Ending

def exitCode : Ending → Nat
  | .completed => 0
  | .failed _ => 1
  | .refused => 2
  | .aborted => 101

def message? : Ending → Option String
  | .failed error => some error.message
  | .completed | .refused | .aborted => none

end Ending

structure Outcome where
  ending : Ending
  console : Console

def Outcome.output (outcome : Outcome) (elapsed : String) : String :=
  String.join (outcome.console.printed.map (PrintedLine.render elapsed))

def usage : List String :=
  ["Usage: codeweave [-v] [-w <WORKSPACE>] <COMMAND>", "",
   "Commands:",
   "  run    Build a code graph from source files",
   "  check  Load pattern documents and report their contents",
   "  tree   Dump the syntax tree of a source file",
   "  help   Print this message"]

def version : String := "codeweave 0.1.0"

/-- Loads the settings that an invocation runs with. Its own documents are relative to the current
directory. -/
def loadSettings (environment : Environment) (files : FileSystem) (invocation : Invocation) :
    Except SettingsError Settings :=
  let overrides := invocation.overrides.anchor files.currentPath
  ((SettingsLoader.ofHome environment.home).load files invocation.workspace overrides).1

def invoke (environment : Environment) (invocation : Invocation) : Session Unit := do
  let settings ← Session.require .settings
    (loadSettings environment (← Session.files) invocation)
  match invocation.command with
  | .run options =>
      runRun environment.engine environment.grammar settings invocation.workspace options
  | .check _ => runCheck environment.engine settings invocation.workspace
  | .tree options => runTree settings environment.grammar options

def answer (environment : Environment) : Request → Session Unit
  | .help => Session.sayAll usage
  | .version => Session.say version
  | .invoke invocation => invoke environment invocation

def execute (environment : Environment) (files : FileSystem) (arguments : List String) : Outcome :=
  let console : Console := ⟨files, [], []⟩
  match Request.parse environment.workspace arguments with
  | .error _ => ⟨.refused, console⟩
  | .ok request =>
      match (answer environment request).run.run console with
      | (.ok _, console) => ⟨.completed, console⟩
      | (.error (.error error), console) => ⟨.failed error, console⟩
      | (.error .overflow, console) => ⟨.aborted, console⟩

end SyntaxGraph.CommandLine
