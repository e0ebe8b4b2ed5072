import SyntaxGraph.CommandLine.Arguments
import SyntaxGraph.Settings.Basic

/-!
The commands, and how arguments spell them. Options that all commands share may stand in front of
the command or behind it, where they count more.
-/

set_option autoImplicit false

namespace SyntaxGraph.CommandLine

structure RunOptions where
  paths : List String
  /-- Pattern documents in place of the configured ones. -/
  patterns : List String
  language : Option String
  jobs : Option Nat
  json : Bool
  output : Option String
deriving DecidableEq, Repr

structure TreeOptions where
  file : String
  language : Option String
  outline : Bool
deriving DecidableEq, Repr

inductive Command where
  | run (options : RunOptions)
  | check (patterns : List String)
  | tree (options : TreeOptions)
deriving DecidableEq, Repr

structure Invocation where
  verbose : Bool
  workspace : String
  command : Command
deriving DecidableEq, Repr

inductive Request where
  | help
  | version
  | invoke (invocation : Invocation)
deriving DecidableEq, Repr

-- Forms of options

def sharedForms : List OptionForm :=
  [⟨"verbose", some 'v', false, false⟩, ⟨"workspace", some 'w', true, false⟩,
   ⟨"help", some 'h', false, false⟩]

def topForms : List OptionForm := sharedForms ++ [⟨"version", some 'V', false, false⟩]

def runForms : List OptionForm :=
  sharedForms ++
    [⟨"patterns", some 'p', true, true⟩, ⟨"language", some 'l', true, false⟩,
     ⟨"jobs", some 'j', true, false⟩, ⟨"json", none, false, false⟩,
     ⟨"output", some 'o', true, false⟩]

def treeForms : List OptionForm :=
  sharedForms ++ [⟨"language", some 'l', true, false⟩, ⟨"outline", none, false, false⟩]

def finalOptions : List String := ["help", "version"]

-- Values

/-- A number in decimal digits, perhaps with a plus sign in front, of at most 64 bits. -/
def readCount (text : String) : Option Nat :=
  let digits := match text.toList with
    | '+' :: digits => digits
    | digits => digits
  let value := digits.foldl (fun value digit => value * 10 + (digit.toNat - '0'.toNat)) 0
  if !digits.isEmpty && digits.all Char.isDigit && value < UInt64.size then some value else none

/-- Paths are not empty, and a number of jobs is a number. -/
def isAdmissible : Given → Bool
  | .operand text => !text.isEmpty
  | .option _ none => true
  | .option long (some value) =>
      if ["workspace", "patterns", "output"].contains long then !value.isEmpty
      else if long = "jobs" then (readCount value).isSome
      else true

def valuesOf (given : List Given) (long : String) : List (Option String) :=
  given.filterMap fun
    | .option name value => if name = long then some value else none
    | .operand _ => none

def hasOption (given : List Given) (long : String) : Bool := !(valuesOf given long).isEmpty

def value? (given : List Given) (long : String) : Option String :=
  (valuesOf given long).head?.bind id

def operands (given : List Given) : List String :=
  given.filterMap fun
    | .operand text => some text
    | .option _ _ => none

def readLevel (forms : List OptionForm) (extent : Extent) (maxOperands : Option Nat)
    (arguments : List String) : Except UsageError Reading := do
  let reading ← readArguments forms finalOptions extent arguments
  let repeated := forms.any fun form =>
    !form.repeatable && 1 < (valuesOf reading.given form.long).length
  let crowded := maxOperands.any fun bound => bound < (operands reading.given).length
  if repeated || crowded || !reading.given.all isAdmissible then throw ⟨⟩
  return reading

-- Commands

def readRun (given : List Given) : Command :=
  let paths := operands given
  .run
    { paths := if paths.isEmpty then ["."] else paths
      patterns := (valuesOf given "patterns").filterMap id
      language := value? given "language"
      jobs := (value? given "jobs").bind readCount
      json := hasOption given "json"
      output := value? given "output" }

def readCheck (given : List Given) : Command := .check (operands given)

def readTree (given : List Given) : Except UsageError Command :=
  match operands given with
  | [file] => .ok (.tree ⟨file, value? given "language", hasOption given "outline"⟩)
  | _ => .error ⟨⟩

/-- The workspace given behind the command, in front of it or by the environment. The environment
is not looked at where both levels give one, and may not be empty elsewhere. -/
def chooseWorkspace (environment outer inner : Option String) : Except UsageError String :=
  match inner, outer, environment with
  | some path, some _, _ => .ok path
  | _, _, some "" => .error ⟨⟩
  | inner, outer, environment => .ok ((inner <|> outer <|> environment).getD ".")

def readCommand (environment : Option String) (outer : List Given) (name : String)
    (arguments : List String) : Except UsageError Request := do
  let level (forms : List OptionForm) (maxOperands : Option Nat)
      (read : List Given → Except UsageError Command) : Except UsageError Request := do
    let given := (← readLevel forms .all maxOperands arguments).given
    if hasOption given "help" then return .help
    let command ← read given
    let workspace ← chooseWorkspace environment (value? outer "workspace") (value? given "workspace")
    return .invoke ⟨hasOption outer "verbose" || hasOption given "verbose", workspace, command⟩
  match name with
  | "run" => level runForms none fun given => .ok (readRun given)
  | "check" => level sharedForms none fun given => .ok (readCheck given)
  | "tree" => level treeForms (some 1) readTree
  | "help" =>
      match arguments with
      | [] => return .help
      | [topic] => if ["run", "check", "tree", "help"].contains topic then return .help else throw ⟨⟩
      | _ => throw ⟨⟩
  | _ => throw ⟨⟩

def Request.parse (environment : Option String) (arguments : List String) :
    Except UsageError Request := do
  let reading ← readLevel topForms .beforeOperand none arguments
  if hasOption reading.given "help" then return .help
  if hasOption reading.given "version" then return .version
  match reading.rest with
  | [] => throw ⟨⟩
  | name :: rest => readCommand environment reading.given name rest

def Invocation.overrides (invocation : Invocation) : SettingsOverrides :=
  let replacing (patterns : List String) : Option (List String) :=
    if patterns.isEmpty then none else some patterns
  let logLevel := if invocation.verbose then some "debug" else none
  match invocation.command with
  | .run options => ⟨replacing options.patterns, options.language, logLevel, options.jobs⟩
  | .check patterns => ⟨replacing patterns, none, logLevel, none⟩
  | .tree options => ⟨none, options.language, logLevel, none⟩

end SyntaxGraph.CommandLine
