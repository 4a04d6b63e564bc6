import CodeSearch.Argument.Basic
import CodeSearch.Embedding
import CodeSearch.Index.Error
import CodeSearch.Ranking

/-! # What is told of errors

Every error is told by its kind in one word and by a message.
-/

namespace CodeSearch

/-- Errors with a kind and a message. -/
class Fault (ε : Type) where
  kind : ε → String
  message : ε → String

namespace Fault

instance : Fault ParseError := ⟨ParseError.kind, ParseError.message⟩

instance : Fault VectorError := ⟨VectorError.kind, VectorError.message⟩

instance : Fault EmbeddingError := ⟨EmbeddingError.kind, EmbeddingError.message⟩

instance : Fault FilterError := ⟨FilterError.reason, FilterError.message⟩

instance : Fault QueryError := ⟨QueryError.kind, QueryError.message⟩

instance : Fault RankingConfigError := ⟨RankingConfigError.kind, RankingConfigError.message⟩

instance : Fault ArgumentError := ⟨ArgumentError.kind, ArgumentError.message⟩

instance : Fault IndexError := ⟨IndexError.kind, IndexError.message⟩

/-- Kind and message as members of an object. -/
def members {ε : Type} [Fault ε] (e : ε) : List (String × Json) :=
  [("error", .str (kind e)), ("message", .str (message e))]

end Fault

end CodeSearch
