import CodeSearch.Filter.Json
import CodeSearch.Index.Operations
import CodeSearch.Index.Search
import CodeSearch.Vector.Json

/-! # Reports of the index as JSON -/

namespace CodeSearch

namespace SourceUnit

def toJson (u : SourceUnit) : Json :=
  .obj [("author", .ofOption .str u.author), ("content_hash", .str u.contentHash),
    ("language", .str u.language.name), ("modified_at", .ofTime u.modifiedAt),
    ("path", .str u.path),
    ("version", .ofNat u.version)]

end SourceUnit

namespace PatternMatch

def toJson (m : PatternMatch) : Json :=
  .obj [("confidence", .float m.confidence.toFloat), ("pattern", .str m.pattern.name),
    ("symbols", .ofTexts m.symbols)]

end PatternMatch

namespace RankedResult

def breakdownJson (b : ScoreBreakdown) : Json :=
  .obj [("context", .float b.context.toFloat), ("feedback", .float b.feedback.toFloat),
    ("recency", .float b.recency.toFloat), ("similarity", .float b.similarity.toFloat),
    ("structural", .float b.structural.toFloat)]

/-- A result with what is needed of its symbol. Matches of patterns are left out when there are
    none. -/
def toJson (r : RankedResult) : Json :=
  let s := r.symbol
  let patterns := if r.patterns.isEmpty then [] else
    [("patterns", Json.arr (r.patterns.map PatternMatch.toJson))]
  .ofMembers ([("rank", .ofNat r.rank), ("symbol_id", .str s.id), ("name", .str s.name),
    ("qualified_name", .str s.qualifiedName), ("kind", .str s.kind.name),
    ("path", .str s.unit.path),
    ("line", .ofNat s.span.startLine), ("signature", .str s.signature),
    ("score", .float r.score.toFloat), ("breakdown", breakdownJson r.breakdown)] ++ patterns)

end RankedResult

namespace QueryIntent

def hintsJson (h : ContextHints) : Json :=
  .obj [("paths", .ofTexts h.paths), ("symbols", .ofTexts h.symbols)]

def toJson (i : QueryIntent) : Json :=
  .obj [("category", .str i.category.name), ("context_hints", hintsJson i.hints),
    ("filters", .arr (i.filters.map Filter.toJson)), ("original", .str i.text),
    ("rewritten", .str i.expanded), ("terms", .ofTexts i.terms)]

end QueryIntent

namespace QueryRequest

def toJson (r : QueryRequest) : Json :=
  .obj [("filters", .arr (r.filters.map Filter.toJson)),
    ("include_patterns", .bool r.includePatterns), ("text", .str r.text),
    ("top_k", .ofOption .ofNat r.topK)]

end QueryRequest

namespace ResolvedRelation

def toJson (r : ResolvedRelation) : Json :=
  .obj [("kind", .str r.kind.name), ("name", .str r.name), ("targets", .ofTexts r.targets)]

end ResolvedRelation

namespace Failure

def members (f : Failure) : List (String × Json) :=
  [("attempts", .ofNat f.attempts), ("kind", .str f.kind.name), ("last_error", .str f.lastError),
    ("next_retry_at", .ofOption .ofTime f.nextRetryAt)]

def toJson (f : Failure) : Json :=
  .obj f.members

end Failure

namespace FileStatus

/-- The state in one word, with what belongs to it. -/
def toJson : FileStatus → Json
  | unindexed => .obj [("state", .str "unindexed")]
  | starting stage => .obj [("state", .str stage.name)]
  | indexed => .obj [("state", .str "indexed")]
  | reindexing stage => .obj [("stage", .str stage.name), ("state", .str "reindexing")]
  | failed f => .obj (f.members ++ [("state", .str "failed")])

end FileStatus

namespace PassOutcome

/-- The outcome in one word, with its numbers. -/
def members : PassOutcome → List (String × Json)
  | indexed c =>
    [("outcome", .str "indexed"), ("added", .ofNat c.added), ("modified", .ofNat c.modified),
      ("removed", .ofNat c.removed), ("unchanged", .ofNat c.unchanged),
      ("embedded", .ofNat c.embedded)]
  | unchanged => [("outcome", .str "unchanged")]
  | removed symbols => [("outcome", .str "removed"), ("symbols", .ofNat symbols)]
  | superseded => [("outcome", .str "superseded")]
  | notIndexed => [("outcome", .str "not_indexed")]

end PassOutcome

namespace Ack

def toJson (a : Ack) : Json :=
  .ofMembers ([("path", .str a.path), ("version", .ofOption .ofNat a.version),
    ("generation", .ofNat a.generation)] ++ a.outcome.members)

end Ack

namespace IndexStats

def cacheJson (c : Syntax.CacheStats) : Json :=
  .obj [("entries", .ofNat c.entries), ("hits", .ofNat c.hits), ("misses", .ofNat c.misses)]

def toJson (s : IndexStats) : Json :=
  .obj [("cache", cacheJson s.cache), ("embeddings", .ofNat s.embeddings),
    ("feedback", .ofNat s.feedback), ("files_failed", .ofNat s.filesFailed),
    ("files_in_progress", .ofNat s.filesInProgress), ("files_indexed", .ofNat s.filesIndexed),
    ("model", .str s.model), ("symbols", .ofNat s.symbols)]

end IndexStats

namespace CodeIndex.PruneCounts

def toJson (c : PruneCounts) : Json :=
  .obj [("files", .ofNat c.files), ("locks", .ofNat c.locks), ("symbols", .ofNat c.symbols)]

end CodeIndex.PruneCounts

end CodeSearch
