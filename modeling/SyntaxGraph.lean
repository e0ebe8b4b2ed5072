import SyntaxGraph.StringMap
import SyntaxGraph.Tree.Outline
import SyntaxGraph.Tree.Stats
import SyntaxGraph.Tree.ConcreteRows
import SyntaxGraph.Language
import SyntaxGraph.Json.Parser
import SyntaxGraph.Json.Printer
import SyntaxGraph.Inspect.Tree
import SyntaxGraph.Matching
import SyntaxGraph.Expression.Parser
import SyntaxGraph.Document.Reader
import SyntaxGraph.Document.Writer
import SyntaxGraph.Document.Pattern
import SyntaxGraph.Expression.Resolve
import SyntaxGraph.Inspect.Graph
import SyntaxGraph.Inspect.Expression
import SyntaxGraph.RegexEngine
import SyntaxGraph.Regex.Compile
import SyntaxGraph.Engine.Execute
import SyntaxGraph.Document.Format
import SyntaxGraph.Inspect.Document
import SyntaxGraph.Inspect.Engine
import SyntaxGraph.Document.Files
import SyntaxGraph.Files.Sources
import SyntaxGraph.Text.Quoted
import SyntaxGraph.Settings.Loader
import SyntaxGraph.Settings.Text
import SyntaxGraph.Inspect.Settings
import SyntaxGraph.CommandLine.Execute
import SyntaxGraph.Main
import SyntaxGraph.Proofs.Matching.Assignment
import SyntaxGraph.Proofs.Tree.Links
import SyntaxGraph.Proofs.Tree.Walk
import SyntaxGraph.Proofs.Engine.Forest
import SyntaxGraph.Proofs.Engine.Search
import SyntaxGraph.Proofs.Engine.Gate
import SyntaxGraph.Proofs.Converter.Effect
import SyntaxGraph.Proofs.Engine.Execution
import SyntaxGraph.Proofs.Tree.History
import SyntaxGraph.Proofs.Matching.Recursion
import SyntaxGraph.Proofs.Graph.Lookup
import SyntaxGraph.Proofs.Graph.Merge
import SyntaxGraph.Proofs.Converter.Writes
import SyntaxGraph.Proofs.Graph.Sound
import SyntaxGraph.Proofs.Engine.Integrity
import SyntaxGraph.Proofs.Engine.Growth
import SyntaxGraph.Proofs.Expression.Lookups
import SyntaxGraph.Proofs.Expression.Locality
import SyntaxGraph.Proofs.Expression.LooksPast
import SyntaxGraph.Proofs.Converter.Macro
import SyntaxGraph.Proofs.Graph.Contexts
import SyntaxGraph.Proofs.Engine.FileByFile
import SyntaxGraph.Proofs.Tree.Copy
import SyntaxGraph.Proofs.Tree.Forest
import SyntaxGraph.Proofs.Tree.Postorder
import SyntaxGraph.Proofs.Tree.Termination
import SyntaxGraph.Proofs.Outline.Layout
import SyntaxGraph.Proofs.Outline.Reading
import SyntaxGraph.Proofs.Outline.RoundTrip
import SyntaxGraph.Proofs.Tree.BottomUp
import SyntaxGraph.Proofs.Document.Fields
import SyntaxGraph.Proofs.Document.RoundTrip
import SyntaxGraph.Proofs.Text.Alphanumeric
import SyntaxGraph.Proofs.Text.Parts
import SyntaxGraph.Proofs.Expression.Reading
import SyntaxGraph.Proofs.Expression.CaptureNames
import SyntaxGraph.Proofs.Expression.SpecialNames
import SyntaxGraph.Proofs.Regex.Matches
import SyntaxGraph.Proofs.Regex.Scanner
import SyntaxGraph.Proofs.Regex.Tokens
import SyntaxGraph.Proofs.Regex.Reading
import SyntaxGraph.Proofs.Regex.Anchored
import SyntaxGraph.Proofs.Regex.WholeValue
import SyntaxGraph.Proofs.Matching.Descendants
import SyntaxGraph.Proofs.Matching.Merging
import SyntaxGraph.Tree.Cached
import SyntaxGraph.Proofs.Tree.CachedOrder
import SyntaxGraph.Proofs.Settings.Layers
import SyntaxGraph.Proofs.Tree.Duplicate
import SyntaxGraph.Proofs.Matching.Renaming
import SyntaxGraph.Proofs.Text.Slices
import SyntaxGraph.Proofs.Tree.Numbering
import SyntaxGraph.Proofs.Tree.Extension
import SyntaxGraph.Proofs.Tree.Conversion
import SyntaxGraph.Proofs.Outline.Building
import SyntaxGraph.Proofs.Outline.Sentences
import SyntaxGraph.Proofs.Outline.Acceptance
import SyntaxGraph.Proofs.Tree.Refusals
import SyntaxGraph.Proofs.Outline.Spans
import SyntaxGraph.Proofs.Tree.Statistics
import SyntaxGraph.Proofs.Tree.ArenaWrites
import SyntaxGraph.Proofs.Tree.Countdown
import SyntaxGraph.Proofs.Text.Nesting
import SyntaxGraph.Proofs.Text.Splitting
import SyntaxGraph.Proofs.Expression.Concatenation
import SyntaxGraph.Proofs.Expression.Failure
import SyntaxGraph.Proofs.Expression.Calls
import SyntaxGraph.Proofs.Text.Occurrences
import SyntaxGraph.Proofs.Engine.Balance
import SyntaxGraph.Proofs.Engine.Validation
import SyntaxGraph.Proofs.Expression.Enclosing
import SyntaxGraph.Proofs.Expression.Markers
import SyntaxGraph.Proofs.Document.Expansion
import SyntaxGraph.Proofs.Settings.Documents
import SyntaxGraph.Proofs.Files.Sources
import SyntaxGraph.Proofs.Files.SizeLimit
import SyntaxGraph.Proofs.Graph.Associations
