import SyntaxGraph.Document.Files
import SyntaxGraph.Engine.Execute
import SyntaxGraph.Files.Sources
import SyntaxGraph.Settings.Loader
import SyntaxGraph.Text.Quoted
import SyntaxGraph.Tree.Concrete
import SyntaxGraph.Tree.Stats

/-!
What commands work on: the files, the printed lines, and a grammar that parses source texts. A
command ends with the first error, and keeps what it has printed. It breaks off without a message
where a number would not fit into its machine word.
-/

set_option autoImplicit false

namespace SyntaxGraph.CommandLine

abbrev Grammar := Language → String → Option ConcreteTree

inductive SourceError where
  | unsupported (error : UnsupportedLanguage)
  | unreadable (path : String)
deriving DecidableEq, Repr

inductive CommandError where
  | settings (error : SettingsError)
  /-- There are no pattern documents to run; the settings file is where they may be named. -/
  | noDocumentsToRun (settingsPath : String)
  | noDocumentsToCheck
  | documents (error : DocumentError)
  | document (path : String) (error : DocumentError)
  | unknownLanguage (name : String)
  | source (error : SourceError)
  | pathNotFound (path : String)
  | unwritable (path : String)
  | emptyTree
  | stats (error : ProcessingError)
deriving DecidableEq, Repr

def quotedPath (path : String) : String := Text.quoted .both path

def SourceError.message : SourceError → String
  | .unsupported error => error.message
  | .unreadable path => "Failed to parse " ++ path

def CommandError.message : CommandError → String
  | .settings _ => "Failed to load configuration"
  | .noDocumentsToRun settingsPath =>
      "No pattern documents configured. Pass --patterns or set [patterns] paths in " ++
        quotedPath settingsPath
  | .noDocumentsToCheck => "No pattern documents given"
  | .documents _ => "Failed to load pattern documents"
  | .document path _ => "Invalid pattern document " ++ path
  | .unknownLanguage name => "Unsupported language: " ++ name
  | .source error => error.message
  | .pathNotFound path => "Path not found: " ++ quotedPath path
  | .unwritable path => "Failed to write graph to " ++ path
  | .emptyTree => "Empty syntax tree"
  | .stats _ => "Failed to compute subtree stats"

/-- A printed line. The elapsed time is known only at the end. -/
inductive PrintedLine where
  | text (line : String)
  | elapsedTime
deriving DecidableEq, Repr, Inhabited

def PrintedLine.render (elapsed : String) : PrintedLine → String
  | .text line => line ++ "\n"
  | .elapsedTime => "  Time: " ++ elapsed ++ "\n"

structure Console where
  files : FileSystem
  written : List (String × String)
  printed : List PrintedLine
deriving Inhabited

/-- What ends a command before its time. -/
inductive Interruption where
  | error (error : CommandError)
  | overflow
deriving DecidableEq, Repr

abbrev Session := ExceptT Interruption (StateM Console)

namespace Session

def fail {Result : Type} (error : CommandError) : Session Result := throw (.error error)

/-- Goes on with a number, or breaks off where there is none that fits. -/
def fitting {Number : Type} : Option Number → Session Number
  | some number => pure number
  | none => throw .overflow

def require {Failure Result : Type} (wrap : Failure → CommandError) :
    Except Failure Result → Session Result
  | .ok result => pure result
  | .error failure => fail (wrap failure)

def files : Session FileSystem := do return (← get).files

def print (lines : List PrintedLine) : Session Unit :=
  modify fun console => { console with printed := console.printed ++ lines }

def say (line : String) : Session Unit := print [.text line]

def sayAll (lines : List String) : Session Unit := print (lines.map .text)

def write (path text : String) : Session Unit := do
  match (← files).write? path text.toUTF8 with
  | some files =>
      modify fun console =>
        { console with files := files, written := console.written ++ [(path, text)] }
  | none => fail (.unwritable path)

end Session

def forcedLanguage (settings : Settings) : Except CommandError (Option Language) :=
  match settings.language with
  | none => .ok none
  | some name =>
      match Language.ofName? name with
      | some language => .ok (some language)
      | none => .error (.unknownLanguage name)

def readSource (files : FileSystem) (grammar : Grammar) (forced : Option Language)
    (path : String) : Except SourceError Tree := do
  let language ← match forced with
    | some language => pure language
    | none =>
        match Language.forPath path with
        | .ok language => pure language
        | .error error => throw (.unsupported error)
  match files.readText? path with
  | none => throw (.unreadable path)
  | some source =>
      match grammar language source with
      | none => throw (.unreadable path)
      | some concrete =>
          match (TreeEdit.convert source concrete).run.run .empty with
          | (.ok (), tree) => return tree
          | (.error _, _) => throw (.unreadable path)

end SyntaxGraph.CommandLine
