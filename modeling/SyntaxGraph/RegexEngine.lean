/-!
Regular expressions as the library asks for them. What is well-formed and what matches is up to the
engine, which is handed to whatever reads pattern documents; the library only puts anchors around
patterns that have to match whole values.
-/

set_option autoImplicit false

namespace SyntaxGraph

/-- Compiles a well-formed pattern into a test whether some part of a text matches. -/
abbrev RegexEngine := String → Option (String → Bool)

/-- A pattern between anchors, so that a match has to cover the whole text. -/
def anchored (pattern : String) : String := "^(?:" ++ pattern ++ ")$"

end SyntaxGraph
