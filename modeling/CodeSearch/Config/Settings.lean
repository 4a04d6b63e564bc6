import CodeSearch.Config.Basic
import CodeSearch.Config.Codec

/-! # The settings by name

Each section of the configuration as a list of settings, in the order in which they are written.
-/

namespace CodeSearch

open Codec

namespace PipelineConfig

def settings : List (Setting PipelineConfig) :=
  [word.setting "workers" workers fun c v => { c with workers := v },
   word.setting "embed_timeout_ms" embedTimeoutMs fun c v => { c with embedTimeoutMs := v },
   bool.setting "reject_syntax_errors" rejectErrors fun c v => { c with rejectErrors := v },
   word.setting "snippet_chars" snippetChars fun c v => { c with snippetChars := v }]

end PipelineConfig

namespace Backoff

def settings : List (Setting Backoff) :=
  [word.setting "base_delay_ms" baseDelayMs fun c v => { c with baseDelayMs := v },
   word.setting "max_delay_ms" maxDelayMs fun c v => { c with maxDelayMs := v },
   (nat (Nat.pow 2 32 - 1)).setting "max_attempts" maxAttempts fun c v => { c with maxAttempts := v }]

def codec : Codec Backoff :=
  record settings {}

end Backoff

namespace CacheConfig

def settings : List (Setting CacheConfig) :=
  [word.setting "capacity" capacity fun c v => { c with capacity := v }]

end CacheConfig

namespace Chunking

def settings : List (Setting Chunking) :=
  [word.setting "max_embeddings_per_unit" maxEmbeddings fun c v => { c with maxEmbeddings := v },
   word.setting "max_text_chars" maxTextChars fun c v => { c with maxTextChars := v },
   (list (choice SymbolKind.all SymbolKind.name)).setting "embed_kinds" kinds
     fun c v => { c with kinds := v }]

def codec : Codec Chunking :=
  record settings {}

end Chunking

namespace GraphParams

def settings : List (Setting GraphParams) :=
  [word.setting "m" m fun c v => { c with m := v },
   word.setting "ef_construction" efConstruction fun c v => { c with efConstruction := v },
   word.setting "ef_search" efSearch fun c v => { c with efSearch := v },
   word.setting "max_elements" maxElements fun c v => { c with maxElements := v },
   word.setting "max_layer" maxLayer fun c v => { c with maxLayer := v },
   score.setting "rebuild_ratio" rebuildRatio fun c v => { c with rebuildRatio := v }]

def codec : Codec GraphParams :=
  record settings {}

end GraphParams

namespace VectorConfig

def settings : List (Setting VectorConfig) :=
  [(choice VectorBackend.all VectorBackend.name).setting "backend" backend
     fun c v => { c with backend := v },
   word.setting "dimension" dimension fun c v => { c with dimension := v },
   word.setting "overfetch_factor" overfetchFactor fun c v => { c with overfetchFactor := v },
   word.setting "max_overfetch_rounds" maxOverfetchRounds
     fun c v => { c with maxOverfetchRounds := v },
   GraphParams.codec.setting "hnsw" graph fun c v => { c with graph := v }]

end VectorConfig

namespace RankingConfig

def settings : List (Setting RankingConfig) :=
  [score.setting "w_similarity" similarity fun c v => { c with similarity := v },
   score.setting "w_structural" structural fun c v => { c with structural := v },
   score.setting "w_recency" recency fun c v => { c with recency := v },
   score.setting "w_feedback" feedback fun c v => { c with feedback := v },
   score.setting "w_context" context fun c v => { c with context := v },
   number.setting "half_life_days" halfLifeDays fun c v => { c with halfLifeDays := v }]

def codec : Codec RankingConfig :=
  record settings {}

end RankingConfig

namespace PatternConfig

def settings : List (Setting PatternConfig) :=
  [score.setting "min_confidence" minConfidence fun c v => { c with minConfidence := v }]

end PatternConfig

namespace QueryConfig

def settings : List (Setting QueryConfig) :=
  [word.setting "default_top_k" defaultTopK fun c v => { c with defaultTopK := v },
   word.setting "candidate_multiplier" candidateMultiplier
     fun c v => { c with candidateMultiplier := v }]

end QueryConfig

namespace ExclusionConfig

def settings : List (Setting ExclusionConfig) :=
  [(list text).setting "patterns" patterns fun c v => { c with patterns := v }]

end ExclusionConfig

namespace IndexConfig

def settings : List (Setting IndexConfig) :=
  [(record PipelineConfig.settings {}).setting "pipeline" pipeline
     fun c v => { c with pipeline := v },
   Backoff.codec.setting "retry" retry fun c v => { c with retry := v },
   (record CacheConfig.settings {}).setting "cache" cache fun c v => { c with cache := v },
   Chunking.codec.setting "chunking" chunking fun c v => { c with chunking := v },
   (record VectorConfig.settings {}).setting "vector" vector fun c v => { c with vector := v },
   RankingConfig.codec.setting "ranking" ranking fun c v => { c with ranking := v },
   (record PatternConfig.settings {}).setting "patterns" patterns
     fun c v => { c with patterns := v },
   (record QueryConfig.settings {}).setting "query" query fun c v => { c with query := v },
   (record ExclusionConfig.settings {}).setting "exclusions" exclusions
     fun c v => { c with exclusions := v }]

def codec : Codec IndexConfig :=
  record settings {}

end IndexConfig

end CodeSearch
