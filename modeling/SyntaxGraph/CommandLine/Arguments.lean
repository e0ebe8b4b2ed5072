/-!
Command line arguments as options and operands. A long option has its value behind an equals sign
or in the next argument; short options may stand together in one argument, the last of them with
its value. Two dashes end the options.
-/

set_option autoImplicit false

namespace SyntaxGraph.CommandLine

structure OptionForm where
  long : String
  short : Option Char
  takesValue : Bool
  repeatable : Bool
deriving DecidableEq, Repr

structure UsageError where
deriving DecidableEq, Repr

inductive Given where
  | option (long : String) (value : Option String)
  | operand (text : String)
deriving DecidableEq, Repr

structure Reading where
  given : List Given
  rest : List String
deriving DecidableEq, Repr

def Reading.put (given : List Given) (reading : Reading) : Reading :=
  { reading with given := given ++ reading.given }

/-- Whether options and operands are read to the end, or up to an operand that stays. -/
inductive Extent where
  | all
  | beforeOperand
deriving DecidableEq, Repr

inductive Shape where
  | endOfOptions
  | long (name : String) (value : Option String)
  | short (letters : List Char)
  | operand
deriving DecidableEq, Repr

/-- A lone dash is an operand. -/
def shapeOf (argument : String) : Shape :=
  match argument.toList with
  | ['-', '-'] => .endOfOptions
  | '-' :: '-' :: characters =>
      let name := characters.takeWhile (· ≠ '=')
      match characters.drop name.length with
      | _ :: value => .long (String.ofList name) (some (String.ofList value))
      | [] => .long (String.ofList name) none
  | '-' :: letter :: letters => .short (letter :: letters)
  | _ => .operand

structure Options where
  given : List Given
  waiting : Option String
deriving DecidableEq, Repr

def readLong (forms : List OptionForm) (name : String) (value : Option String) :
    Except UsageError Options :=
  match forms.find? fun form => form.long = name with
  | none => .error ⟨⟩
  | some form =>
      match form.takesValue, value with
      | true, none => .ok ⟨[], some name⟩
      | true, some text => .ok ⟨[.option name (some text)], none⟩
      | false, none => .ok ⟨[.option name none], none⟩
      | false, some _ => .error ⟨⟩

/-- Letters behind an option with a value are the value, without an equals sign in front. Letters
behind a final option do not count. -/
def readLetters (forms : List OptionForm) (finals : List String) :
    List Char → Except UsageError Options
  | [] => .ok ⟨[], none⟩
  | letter :: rest =>
      match forms.find? fun form => form.short = some letter with
      | none => .error ⟨⟩
      | some form =>
          if finals.contains form.long then .ok ⟨[.option form.long none], none⟩
          else if form.takesValue then
            match rest with
            | [] => .ok ⟨[], some form.long⟩
            | '=' :: value => .ok ⟨[.option form.long (some (String.ofList value))], none⟩
            | value => .ok ⟨[.option form.long (some (String.ofList value))], none⟩
          else do
            let others ← readLetters forms finals rest
            return { others with given := .option form.long none :: others.given }

inductive Item where
  | endOfOptions
  | operand
  | options (options : Options)
deriving DecidableEq, Repr

def readArgument (forms : List OptionForm) (finals : List String) (argument : String) :
    Except UsageError Item :=
  match shapeOf argument with
  | .endOfOptions => .ok .endOfOptions
  | .operand => .ok .operand
  | .long name value => (readLong forms name value).map .options
  | .short letters => (readLetters forms finals letters).map .options

def canBeValue (argument : String) : Bool := shapeOf argument = .operand

def hasFinal (finals : List String) (given : List Given) : Bool :=
  given.any fun
    | .option long _ => finals.contains long
    | .operand _ => false

/-- Reads arguments. A final option ends the reading, whatever stands behind it. -/
def readArguments (forms : List OptionForm) (finals : List String) (extent : Extent) :
    List String → Except UsageError Reading
  | [] => .ok ⟨[], []⟩
  | argument :: rest =>
      match readArgument forms finals argument, extent with
      | .error error, _ => .error error
      | .ok .operand, .beforeOperand => .ok ⟨[], argument :: rest⟩
      | .ok .operand, .all =>
          (readArguments forms finals extent rest).map (.put [.operand argument])
      | .ok .endOfOptions, .beforeOperand => .error ⟨⟩
      | .ok .endOfOptions, .all => .ok ⟨rest.map .operand, []⟩
      | .ok (.options options), _ =>
          if hasFinal finals options.given then .ok ⟨options.given, []⟩
          else
            match options.waiting with
            | none => (readArguments forms finals extent rest).map (.put options.given)
            | some long =>
                match rest with
                | [] => .error ⟨⟩
                | value :: others =>
                    if canBeValue value then
                      (readArguments forms finals extent others).map
                        (.put (options.given ++ [.option long (some value)]))
                    else .error ⟨⟩

end SyntaxGraph.CommandLine
