import SyntaxGraph.Expression.Basic

/-!
What can be wrong with an entry of a pattern document that was read.
-/

set_option autoImplicit false

namespace SyntaxGraph

inductive EntryFault where
  | noAlternatives
  | emptyRule
  | captureName (name : String)
  | expression (error : ExpressionError)
  | regex (pattern : String)
  | edgeType (text : String)
  | noImportFields
deriving DecidableEq, Repr

def EntryFault.message : EntryFault → String
  | .noAlternatives => "alternatives pattern has no alternatives"
  | .emptyRule => "node pattern has an empty rule"
  | .captureName name => "invalid capture name '" ++ name ++ "'"
  | .expression error => error.message
  | .regex pattern => "invalid regex '" ++ pattern ++ "'"
  | .edgeType text => "unknown edge type '" ++ text ++ "'"
  | .noImportFields => "import converter has no fields"

structure EntryError where
  entry : Nat
  fault : EntryFault
deriving DecidableEq, Repr

def EntryError.message (error : EntryError) : String :=
  s!"pattern entry {error.entry}: " ++ error.fault.message

end SyntaxGraph
