import SyntaxGraph.CommandLine.Session

/-!
The command that loads pattern documents one by one and reports what they contain.
-/

set_option autoImplicit false

namespace SyntaxGraph.CommandLine

def entryLine (entry : PatternEntry) (position : Nat) : String :=
  s!"  [{position}] " ++ entry.pattern.text ++
    s!"  ({entry.predicates.length} predicates, {entry.converters.length} converters)"

def checkDocuments (engine : RegexEngine) : List String → Session Nat
  | [] => return 0
  | path :: rest => do
      let set ← Session.require (.document path) (PatternSet.ofPath engine (← Session.files) path)
      Session.say (path ++ s!": {set.length} patterns")
      Session.sayAll (set.zipIdx.map fun (entry, position) => entryLine entry position)
      return set.length + (← checkDocuments engine rest)

def runCheck (engine : RegexEngine) (settings : Settings) (workspace : String) :
    Session Unit := do
  let paths := settings.documentPaths workspace
  if paths.isEmpty then
    Session.fail .noDocumentsToCheck
  let total ← checkDocuments engine paths
  Session.say ""
  Session.say s!"All documents valid: {total} patterns"

end SyntaxGraph.CommandLine
