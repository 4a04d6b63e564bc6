import CodeSearch.Embedding
import CodeSearch.Index.Backoff
import CodeSearch.Index.Chunking
import CodeSearch.Index.Error
import CodeSearch.Pattern.Detector
import CodeSearch.Ranking
import CodeSearch.Symbol.Extract
import CodeSearch.Text.Quoted
import CodeSearch.Vector.Store

/-! # Configuration

What can be set about an index, in sections. Every setting has a default, and a configuration is
accepted when all of its sections make sense.
-/

namespace CodeSearch

/-- How files are worked on. -/
structure PipelineConfig where
  /-- Number of files that are worked on at a time. -/
  workers : Nat := 4
  /-- Longest time that embedding the texts of a file may take, in milliseconds. -/
  embedTimeoutMs : Nat := 10000
  /-- Whether a source with syntax errors is refused. -/
  rejectErrors : Bool := true
  /-- Number of characters of a symbol's text that are kept. -/
  snippetChars : Nat := Extract.defaultSnippetChars
  deriving Repr, DecidableEq, Inhabited

/-- How many parsed sources are kept. -/
structure CacheConfig where
  capacity : Nat := 256
  deriving Repr, DecidableEq, Inhabited

inductive VectorBackend where
  | exact
  | graph
  deriving Repr, DecidableEq, Inhabited

namespace VectorBackend

def name : VectorBackend → String
  | exact => "exact"
  | graph => "hnsw"

def all : List VectorBackend :=
  [exact, graph]

end VectorBackend

/-- How vectors are made, stored and searched. -/
structure VectorConfig where
  backend : VectorBackend := .exact
  dimension : Nat := HashingEmbedder.defaultDimension
  overfetchFactor : Nat := 4
  maxOverfetchRounds : Nat := 3
  graph : GraphParams := {}
  deriving Repr, BEq, Inhabited

/-- From which confidence on patterns are reported. -/
structure PatternConfig where
  minConfidence : Score := Detector.defaultThreshold
  deriving Repr, BEq, Inhabited

/-- How questions are answered. -/
structure QueryConfig where
  /-- Number of results unless told otherwise. -/
  defaultTopK : Nat := 10
  /-- Number of candidates that are looked at for each result. -/
  candidateMultiplier : Nat := 4
  deriving Repr, DecidableEq, Inhabited

/-- Which files of a project are passed over. -/
structure ExclusionConfig where
  patterns : List String :=
    ["**/target/**", "**/node_modules/**", "**/.git/**", "**/vendor/**", "**/dist/**",
     "**/build/**", "**/__pycache__/**", "**/.venv/**", "**/*.min.js"]
  deriving Repr, DecidableEq, Inhabited

/-- Everything that can be set about an index. -/
structure IndexConfig where
  pipeline : PipelineConfig := {}
  retry : Backoff := {}
  cache : CacheConfig := {}
  chunking : Chunking := {}
  vector : VectorConfig := {}
  ranking : RankingConfig := {}
  patterns : PatternConfig := {}
  query : QueryConfig := {}
  exclusions : ExclusionConfig := {}
  deriving Repr, BEq, Inhabited

namespace ExclusionConfig

def refusal (pattern : String) (cause : GlobError) : IndexError :=
  let quoted := Text.quoted pattern
  let reason := cause.message
  .config s!"exclusions: invalid glob {quoted}: error parsing glob '{pattern}': {reason}"

def globs (c : ExclusionConfig) : Except IndexError (List Glob) :=
  c.patterns.mapM fun pattern =>
    match Glob.ofText pattern with
    | .ok glob => .ok glob
    | .error cause => .error (refusal pattern cause)

end ExclusionConfig

namespace IndexConfig

/-- What is wrong with the numbers of a configuration, if something is. -/
def numberFault? (c : IndexConfig) : Option String :=
  if c.pipeline.workers = 0 then some "pipeline.workers must be > 0"
  else if c.pipeline.embedTimeoutMs = 0 then some "pipeline.embed_timeout_ms must be > 0"
  else if c.cache.capacity = 0 then some "cache.capacity must be > 0"
  else if c.vector.dimension = 0 then some "vector.dimension must be > 0"
  else if c.vector.overfetchFactor = 0 || c.vector.maxOverfetchRounds = 0 then
    some "vector.overfetch_factor and vector.max_overfetch_rounds must be > 0"
  else if !(0 ≤ c.patterns.minConfidence && c.patterns.minConfidence ≤ 1) then
    let number := (Decimal.Parts.ofFloat32 c.patterns.minConfidence).plain
    some s!"patterns.min_confidence must be within [0, 1], got {number}"
  else if c.query.defaultTopK = 0 then some "query.default_top_k must be > 0"
  else if c.query.candidateMultiplier = 0 then some "query.candidate_multiplier must be > 0"
  else none

/-- Accept a configuration of which every section makes sense. -/
def validate (c : IndexConfig) : Except IndexError Unit := do
  match c.numberFault? with
  | some fault => throw (.config fault)
  | none => pure ()
  c.retry.validate.mapError .config
  c.chunking.validate.mapError .config
  if c.vector.backend = .graph then
    c.vector.graph.validate.mapError fun cause => .config cause.message
  c.ranking.validate.mapError fun cause => .config cause.message
  discard c.exclusions.globs

end IndexConfig

end CodeSearch
