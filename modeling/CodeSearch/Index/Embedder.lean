import CodeSearch.Embedding

/-! # Embedders

An embedder turns a batch of texts into vectors, and can fail in doing so. One that is made to fail
shows how the index gets along with it.
-/

namespace CodeSearch

/-- Why an embedder gave no vectors. -/
inductive EmbedFault where
  | refused (cause : EmbeddingError)
  /-- It took too long. -/
  | timedOut
  deriving Repr, DecidableEq

/-- Something that embeds texts. -/
structure Embedder where
  model : String
  dimension : Nat
  embed : List String → Except EmbedFault (List Vector)
  deriving Inhabited

inductive EmbedderMode where
  | sound
  /-- It refuses every batch. -/
  | offline
  /-- It never answers. -/
  | hanging
  /-- It leaves out the last vector. -/
  | short
  /-- Its vectors have one component too many. -/
  | wide
  /-- The first components of its vectors are no numbers. -/
  | notANumber
  deriving Repr, DecidableEq, Inhabited

namespace EmbedderMode

/-- What becomes of the right vectors. -/
def spoil (mode : EmbedderMode) (vectors : List Vector) : Except EmbedFault (List Vector) :=
  match mode with
  | sound => .ok vectors
  | offline => .error (.refused (.provider "provider offline"))
  | hanging => .error .timedOut
  | short => .ok vectors.dropLast
  | wide => .ok (vectors.map (· ++ [0]))
  | notANumber => .ok (vectors.map fun v => v.modify 0 fun _ => 0 / 0)

end EmbedderMode

namespace Embedder

def hashing (dimension : Nat) : Embedder :=
  let e := HashingEmbedder.ofDimension dimension
  { model := HashingEmbedder.modelName, dimension := e.dimension
    embed := fun texts => .ok (texts.map e.embed) }

/-- Embedding by hashing that goes wrong in a way that can be switched. -/
def switched (dimension : Nat) (mode : EmbedderMode) : Embedder :=
  let e := HashingEmbedder.ofDimension dimension
  { model := "switch", dimension := e.dimension
    embed := fun texts => mode.spoil (texts.map e.embed) }

/-- The vectors of a batch, as many as texts and all of the right dimension. A fault is put into
    words; `late` are those for no answer in time. -/
def embedChecked (e : Embedder) (late : String) (texts : List String) :
    Except String (List Vector) :=
  match e.embed texts with
  | .error .timedOut => .error late
  | .error (.refused cause) => .error cause.message
  | .ok vectors =>
    match Embedding.checkBatch texts.length e.dimension vectors with
    | .ok _ => .ok vectors
    | .error cause => .error cause.message

end Embedder

end CodeSearch
