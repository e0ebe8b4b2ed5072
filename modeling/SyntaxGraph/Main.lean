import SyntaxGraph.CommandLine.Execute
import SyntaxGraph.Regex.Compile
import SyntaxGraph.Tree.ConcreteRows

/-!
The program. Standard input names the files that it may look at, one in a line; a name with a slash
at its end is a directory. The concrete tree of a source file stands in a file of the same name
with `.cst` behind it, as rows in level order.
-/

set_option autoImplicit false

namespace SyntaxGraph.CommandLine

def secondsText (milliseconds : Nat) : String :=
  let hundredths := (milliseconds + 5) / 10
  let fraction := toString (hundredths % 100)
  s!"{hundredths / 100}." ++ (if fraction.length < 2 then "0" ++ fraction else fraction) ++ "s"

def addNamed (files : FileSystem) (name : String) : IO FileSystem := do
  if name.isEmpty then return files
  if name.toList.getLast? = some '/' then return files.makeDirectory name
  return files.install name (← IO.FS.readBinFile name)

partial def readNames (input : IO.FS.Stream) (names : Array String) : IO (Array String) := do
  let line ← input.getLine
  if line.isEmpty then return names
  readNames input (names.push (String.ofList (line.toList.filter (· ≠ '\n'))))

/-- The trees that stand beside the named sources, found by the text of the source. -/
def treesBeside (files : FileSystem) (names : List String) : List (String × ConcreteTree) :=
  names.filterMap fun name => do
    let source ← files.readText? name
    let rows ← files.readText? (name ++ ".cst")
    return (source, ← ConcreteTree.ofJson? (← Json.parse? rows))

end SyntaxGraph.CommandLine

open SyntaxGraph SyntaxGraph.CommandLine in
def main (arguments : List String) : IO UInt32 := do
  let start ← IO.monoMsNow
  let names := (← readNames (← IO.getStdin) #[]).toList
  let current := ((← IO.getEnv "PWD").getD "/").splitOn "/" |>.filter fun name => !name.isEmpty
  let files ← names.foldlM addNamed (FileSystem.makeDirectory ⟨.directory [], current⟩ ".")
  let trees := treesBeside files names
  let environment : Environment :=
    ⟨← IO.getEnv "HOME", ← IO.getEnv "CODEWEAVE_WORKSPACE", fun _ source => trees.lookup source,
      Regex.engine⟩
  let outcome := execute environment files arguments
  for (path, text) in outcome.console.written do
    IO.FS.writeFile path text
  let elapsed := (← IO.monoMsNow) - start
  IO.print (outcome.output (secondsText elapsed))
  if let some message := outcome.ending.message? then
    IO.eprintln ("Error: " ++ message)
  return outcome.ending.exitCode.toUInt32
