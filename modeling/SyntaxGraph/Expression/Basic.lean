import SyntaxGraph.Text.TopLevel

/-!
Expressions over the captures of a match: literals and capture references joined by `+`. A
reference may carry an optional mark and a chain of dot calls with expressions as arguments.
-/

set_option autoImplicit false

namespace SyntaxGraph

mutual

/-- An expression keeps the text it was read from. -/
inductive Expression where
  | mk (source : String) (terms : List Term)

inductive Term where
  | literal (text : String)
  | reference (reference : Reference)

inductive Reference where
  | mk (name : String) (optional : Bool) (calls : List DotCall)

inductive DotCall where
  | mk (name : String) (arguments : List Expression)

end

deriving instance Repr, Inhabited for Expression, Term, Reference, DotCall

def Expression.source : Expression → String
  | .mk source _ => source

def Expression.terms : Expression → List Term
  | .mk _ terms => terms

def Term.reference? : Term → Option Reference
  | .literal _ => none
  | .reference found => some found

def Expression.references (expression : Expression) : List Reference :=
  expression.terms.filterMap Term.reference?

def Reference.name : Reference → String
  | .mk name _ _ => name

def Reference.isOptional : Reference → Bool
  | .mk _ optional _ => optional

def Reference.calls : Reference → List DotCall
  | .mk _ _ calls => calls

def DotCall.name : DotCall → String
  | .mk name _ => name

def DotCall.arguments : DotCall → List Expression
  | .mk _ arguments => arguments

inductive ExpressionFault where
  | split (fault : Text.SplitFault)
  | captureName (name : String)
  | emptyCall
  | unclosedCall (segment : String)
deriving DecidableEq, Repr

def ExpressionFault.message : ExpressionFault → String
  | .split fault => fault.message
  | .captureName name => "invalid capture name '" ++ name ++ "'"
  | .emptyCall => "empty dot call"
  | .unclosedCall segment => "unclosed call '" ++ segment ++ "'"

/-- A fault anywhere inside an expression is reported with the whole expression. -/
structure ExpressionError where
  source : String
  fault : ExpressionFault
deriving DecidableEq, Repr

def ExpressionError.message (error : ExpressionError) : String :=
  "invalid argument '" ++ error.source ++ "': " ++ error.fault.message

end SyntaxGraph
