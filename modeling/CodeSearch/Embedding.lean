import CodeSearch.Digest.Blake3
import CodeSearch.Text.Case
import CodeSearch.Text.Split
import CodeSearch.Vector.Basic

/-! # Embedding text

Texts become vectors by hashing features into buckets: the lowercase parts of their identifiers,
and with less weight the trigrams of longer parts. `parseConfig` and `parse_config` have the same
parts.
-/

namespace CodeSearch

/-- Why the vectors of a batch of texts cannot be used. -/
inductive EmbeddingError where
  | provider (detail : String)
  | dimensionMismatch (expected got : Nat)
  | countMismatch (sent received : Nat)
  deriving Repr, DecidableEq

namespace EmbeddingError

def kind : EmbeddingError → String
  | provider _ => "provider"
  | dimensionMismatch _ _ => "dimension_mismatch"
  | countMismatch _ _ => "count_mismatch"

def message : EmbeddingError → String
  | provider detail => s!"embedding provider failed: {detail}"
  | dimensionMismatch expected got =>
    s!"embedding dimension mismatch: expected {expected}, got {got}"
  | countMismatch sent received =>
    s!"embedding count mismatch: sent {sent}, received {received}"

end EmbeddingError

namespace Embedding

/-- Accept a batch of as many vectors as texts were sent, all of the right dimension. -/
def checkBatch (sent dimension : Nat) (vectors : List Vector) : Except EmbeddingError Unit :=
  if vectors.length ≠ sent then .error (.countMismatch sent vectors.length)
  else
    match vectors.find? (·.length ≠ dimension) with
    | some bad => .error (.dimensionMismatch dimension bad.length)
    | none => .ok ()

/-- The parts of a word, of which `current` is the one at hand in reverse. A capital after a small
    letter or an ASCII digit begins a new part. -/
def humps (current : List Char) (afterSmall : Bool) : List Char → List (List Char)
  | [] => if current.isEmpty then [] else [current.reverse]
  | c :: cs =>
    let small := Text.isLower c || c.isDigit
    if Text.isUpper c && afterSmall && !current.isEmpty then current.reverse :: humps [c] small cs
    else humps (c :: current) small cs

/-- The parts of all identifiers of a text, in lower case. -/
def parts (text : String) : List String :=
  let words := Text.splitWhere (fun c => !Text.isAlphanumeric c) text.toList
  (words.flatMap (humps [] false)).map fun part => Text.lower (String.ofList part)

/-- All runs of three characters. -/
def trigrams : List Char → List (List Char)
  | a :: b :: c :: rest => [a, b, c] :: trigrams (b :: c :: rest)
  | _ => []

def features (text : String) : List (String × Score) :=
  (parts text).flatMap fun part =>
    let cs := part.toList
    let grams := if 3 < cs.length then trigrams cs else []
    (part, 1) :: grams.map fun gram => (String.ofList gram, 0.25)

/-- The number that bytes write, the lowest first. -/
def littleEndian : List UInt8 → Nat
  | [] => 0
  | b :: rest => b.toNat + 256 * littleEndian rest

/-- Bucket and sign of a feature, from the first nine bytes of its hash. -/
def bucket (dimension : Nat) (feature : String) : Nat × Score :=
  let hash := Digest.Blake3.hash (Digest.utf8 feature)
  (littleEndian (hash.take 8) % dimension, if hash.getD 8 0 % 2 == 0 then 1 else -1)

/-- Divide by the length, unless that is zero. -/
def normalize (v : Vector) : Vector :=
  let norm := (Score.sum (v.map fun x => x * x)).sqrt
  if norm > 0 then v.map (· / norm) else v

end Embedding

/-- Hashing into a number of buckets. -/
structure HashingEmbedder where
  dimension : Nat
  deriving Repr, DecidableEq, Inhabited

namespace HashingEmbedder

def defaultDimension : Nat := 256

/-- An embedder of at least eight buckets. -/
def ofDimension (dimension : Nat) : HashingEmbedder :=
  ⟨max dimension 8⟩

def modelName : String := "hashing-subtoken-v1"

def embed (e : HashingEmbedder) (text : String) : Vector :=
  let filled := (Embedding.features text).foldl (fun (v : Vector) (feature, weight) =>
    let (i, sign) := Embedding.bucket e.dimension feature
    v.modify i (· + sign * weight)) (List.replicate e.dimension 0)
  Embedding.normalize filled

end HashingEmbedder

end CodeSearch
