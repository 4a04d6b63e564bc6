import CodeSearch.Argument.Basic
import CodeSearch.Argument.Items
import CodeSearch.Argument.Request
import CodeSearch.Command.Basic
import CodeSearch.Command.Form
import CodeSearch.Command.Reader
import CodeSearch.Command.Run
import CodeSearch.Config.Basic
import CodeSearch.Config.Codec
import CodeSearch.Config.Settings
import CodeSearch.Decimal.Reader
import CodeSearch.Decimal.Shortest
import CodeSearch.Decimal.Text
import CodeSearch.Digest.Blake3
import CodeSearch.EditDistance
import CodeSearch.Embedding
import CodeSearch.Fault
import CodeSearch.Feedback
import CodeSearch.FilePath
import CodeSearch.Filter.Basic
import CodeSearch.Filter.Conjunction
import CodeSearch.Filter.Json
import CodeSearch.Filter.Reader
import CodeSearch.Glob
import CodeSearch.Grammar.Basic
import CodeSearch.Grammar.Go
import CodeSearch.Grammar.JavaScript
import CodeSearch.Grammar.LoadedSlots
import CodeSearch.Grammar.Python
import CodeSearch.Grammar.Rust
import CodeSearch.Index.Backoff
import CodeSearch.Index.Basic
import CodeSearch.Index.Chunking
import CodeSearch.Index.Commit
import CodeSearch.Index.Embedder
import CodeSearch.Index.Error
import CodeSearch.Index.FileTable
import CodeSearch.Index.IdSet
import CodeSearch.Index.Json
import CodeSearch.Index.Locks
import CodeSearch.Index.Lookup
import CodeSearch.Index.Operations
import CodeSearch.Index.Pass
import CodeSearch.Index.Search
import CodeSearch.Index.State
import CodeSearch.Json.Basic
import CodeSearch.Json.Members
import CodeSearch.Json.Number
import CodeSearch.Json.Reader
import CodeSearch.Json.Writer
import CodeSearch.Keyed
import CodeSearch.Language
import CodeSearch.Main
import CodeSearch.ParseError
import CodeSearch.Pattern.Basic
import CodeSearch.Pattern.Catalog
import CodeSearch.Pattern.Detector
import CodeSearch.Pattern.Rule
import CodeSearch.Pattern.Subject
import CodeSearch.Project.Basic
import CodeSearch.Project.Json
import CodeSearch.Project.Open
import CodeSearch.Project.Scan
import CodeSearch.Proofs.Along
import CodeSearch.Proofs.Argument.Items
import CodeSearch.Proofs.Argument.NormalForm
import CodeSearch.Proofs.Argument.Request
import CodeSearch.Proofs.Argument.Shapes
import CodeSearch.Proofs.EditDistance
import CodeSearch.Proofs.Embedding
import CodeSearch.Proofs.Except
import CodeSearch.Proofs.Filter
import CodeSearch.Proofs.Filter.DateRange
import CodeSearch.Proofs.Filter.Directory
import CodeSearch.Proofs.Grammar.Go
import CodeSearch.Proofs.Grammar.Python
import CodeSearch.Proofs.Index.Answers
import CodeSearch.Proofs.Index.Attempts
import CodeSearch.Proofs.Index.Backoff
import CodeSearch.Proofs.Index.Building
import CodeSearch.Proofs.Index.Candidates
import CodeSearch.Proofs.Index.Consistency
import CodeSearch.Proofs.Index.Due
import CodeSearch.Proofs.Index.Exclusion
import CodeSearch.Proofs.Index.FileTable
import CodeSearch.Proofs.Index.Freshness
import CodeSearch.Proofs.Index.Interleaving
import CodeSearch.Proofs.Index.Isolation
import CodeSearch.Proofs.Index.Labels
import CodeSearch.Proofs.Index.LatestWins
import CodeSearch.Proofs.Index.Locks
import CodeSearch.Proofs.Index.Mirror
import CodeSearch.Proofs.Index.Names
import CodeSearch.Proofs.Index.Noting
import CodeSearch.Proofs.Index.Patterns
import CodeSearch.Proofs.Index.Placement
import CodeSearch.Proofs.Index.Progress
import CodeSearch.Proofs.Index.Pruning
import CodeSearch.Proofs.Index.Reading
import CodeSearch.Proofs.Index.Recovery
import CodeSearch.Proofs.Index.References
import CodeSearch.Proofs.Index.Replacement
import CodeSearch.Proofs.Index.Run
import CodeSearch.Proofs.Index.Scratch
import CodeSearch.Proofs.Index.Selection
import CodeSearch.Proofs.Index.Session
import CodeSearch.Proofs.Index.Status
import CodeSearch.Proofs.Index.Step
import CodeSearch.Proofs.Index.Stepping
import CodeSearch.Proofs.Index.Tracking
import CodeSearch.Proofs.Index.Turns
import CodeSearch.Proofs.Index.Uncommitted
import CodeSearch.Proofs.Index.Undisturbed
import CodeSearch.Proofs.Index.Vectors
import CodeSearch.Proofs.Index.Versions
import CodeSearch.Proofs.Index.Visibility
import CodeSearch.Proofs.Json.Number
import CodeSearch.Proofs.Json.RoundTrip
import CodeSearch.Proofs.Json.Steps
import CodeSearch.Proofs.Keyed
import CodeSearch.Proofs.Pattern.Arrangement
import CodeSearch.Proofs.Query.Names
import CodeSearch.Proofs.Query.Terms
import CodeSearch.Proofs.Ranking
import CodeSearch.Proofs.Rounding
import CodeSearch.Proofs.Score
import CodeSearch.Proofs.Shape.Copy
import CodeSearch.Proofs.Shape.Hash
import CodeSearch.Proofs.Similarity
import CodeSearch.Proofs.Sorting
import CodeSearch.Proofs.Symbol.Comparison
import CodeSearch.Proofs.Symbol.Duplicates
import CodeSearch.Proofs.Symbol.Extraction
import CodeSearch.Proofs.Symbol.Forest
import CodeSearch.Proofs.Symbol.Ids
import CodeSearch.Proofs.Symbol.Listing
import CodeSearch.Proofs.Symbol.Matching
import CodeSearch.Proofs.Symbol.Mentions
import CodeSearch.Proofs.Symbol.Pairing
import CodeSearch.Proofs.Symbol.Parts
import CodeSearch.Proofs.Symbol.Renaming
import CodeSearch.Proofs.Symbol.Resolution
import CodeSearch.Proofs.Symbol.SelfComparison
import CodeSearch.Proofs.Symbol.Sites
import CodeSearch.Proofs.Symbol.Stamps
import CodeSearch.Proofs.Symbol.Traversal
import CodeSearch.Proofs.Syntax.Arena
import CodeSearch.Proofs.Syntax.Attributes
import CodeSearch.Proofs.Syntax.FirstError
import CodeSearch.Proofs.Syntax.Names
import CodeSearch.Proofs.Syntax.ParseCache
import CodeSearch.Proofs.Text
import CodeSearch.Proofs.Time.Calendar
import CodeSearch.Proofs.Time.DateText
import CodeSearch.Proofs.Vector.Graph
import CodeSearch.Proofs.Vector.Nearest
import CodeSearch.Proofs.Vector.Overfetch
import CodeSearch.Proofs.Vector.Runs
import CodeSearch.Proofs.Vector.Search
import CodeSearch.Proofs.Vector.Store
import CodeSearch.Proofs.Vector.Zero
import CodeSearch.Query
import CodeSearch.Ranking
import CodeSearch.Regular
import CodeSearch.Score
import CodeSearch.Shape
import CodeSearch.Similarity
import CodeSearch.Symbol.Basic
import CodeSearch.Symbol.Diff
import CodeSearch.Symbol.Extract
import CodeSearch.Symbol.Json
import CodeSearch.Syntax.Ast
import CodeSearch.Syntax.Attributes
import CodeSearch.Syntax.Concrete
import CodeSearch.Syntax.Json
import CodeSearch.Syntax.NodeKind
import CodeSearch.Syntax.ParseCache
import CodeSearch.Syntax.Source
import CodeSearch.Text.Blank
import CodeSearch.Text.Case
import CodeSearch.Text.CaseTable
import CodeSearch.Text.LetterTable
import CodeSearch.Text.Quoted
import CodeSearch.Text.Slice
import CodeSearch.Text.Split
import CodeSearch.Time.Calendar
import CodeSearch.Time.DateText
import CodeSearch.Time.Instant
import CodeSearch.Time.Rfc3339
import CodeSearch.Toml.Reader
import CodeSearch.Toml.Scalar
import CodeSearch.Toml.Table
import CodeSearch.Toml.Writer
import CodeSearch.Vector.Basic
import CodeSearch.Vector.Exact
import CodeSearch.Vector.Graph
import CodeSearch.Vector.Json
import CodeSearch.Vector.Store
