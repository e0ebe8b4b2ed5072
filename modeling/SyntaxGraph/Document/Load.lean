import SyntaxGraph.Document.Converter
import SyntaxGraph.Document.Pattern
import SyntaxGraph.Document.Reader
import SyntaxGraph.Engine.Search

/-!
Loading pattern documents: a text is read into drafts, and every entry is checked, its pattern
first, then its predicates and its converters.
-/

set_option autoImplicit false

namespace SyntaxGraph

def EntryDraft.check (engine : RegexEngine) (draft : EntryDraft) :
    Except EntryFault PatternEntry := do
  let pattern ← draft.pattern.check
  let predicates ← draft.predicates.mapM (PredicateDraft.check engine)
  let converters ← draft.converters.mapM (ConverterDraft.check engine)
  return ⟨pattern, predicates, converters.flatten⟩

namespace PatternSet

/-- Checks drafts in order; the first fault is reported with the position of its entry. -/
def ofDraftsFrom (engine : RegexEngine) (position : Nat) :
    List EntryDraft → Except EntryError PatternSet
  | [] => .ok []
  | draft :: rest =>
      match draft.check engine with
      | .error fault => .error ⟨position, fault⟩
      | .ok entry => do return entry :: (← ofDraftsFrom engine (position + 1) rest)

def ofDrafts (engine : RegexEngine) (drafts : List EntryDraft) : Except EntryError PatternSet :=
  ofDraftsFrom engine 0 drafts

end PatternSet

end SyntaxGraph
