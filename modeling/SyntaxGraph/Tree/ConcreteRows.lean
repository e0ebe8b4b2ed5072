import SyntaxGraph.Json.Record
import SyntaxGraph.Tree.Concrete

/-!
Concrete trees written in JSON, as a list of rows in level order. A row holds the position of its
parent or a negative number, the kind, one for a named node and zero for a token, the bytes where
the node starts and ends, and its row and column.
-/

set_option autoImplicit false

namespace SyntaxGraph

def ConcreteRow.ofJson? (value : Json) : Option ConcreteRow := do
  match ← value.items? with
  | [parent, kind, named, startByte, endByte, row, column] =>
      let position ← parent.integer?
      return ⟨if position < 0 then none else some position.toNat,
        ⟨← kind.text?, (← named.natural?) = 1, ← startByte.natural?, ← endByte.natural?,
          ← row.natural?, ← column.natural?⟩⟩
  | _ => none

def ConcreteTree.ofJson? (value : Json) : Option ConcreteTree := do
  ofRows? (← Json.listOf? ConcreteRow.ofJson? value)

end SyntaxGraph
