import CodeSearch.Decimal.Text
import CodeSearch.Score
import CodeSearch.Symbol.Basic

/-! # Vectors and records

A record holds the vector of a symbol beside what a search can be restricted by. A search answers
with candidates, most similar first.
-/

namespace CodeSearch

open Time (Instant)

abbrev Vector := List Score

/-- What a search can be restricted by. -/
structure Metadata where
  language : Language
  path : String
  kind : SymbolKind
  modifiedAt : Instant
  author : Option String
  deriving Repr, DecidableEq, Inhabited

/-- The stored vector of a symbol. -/
structure Record where
  id : SymbolId
  vector : Vector
  metadata : Metadata
  deriving Repr, Inhabited

/-- A symbol that a search found. -/
structure Candidate where
  id : SymbolId
  similarity : Score
  metadata : Metadata
  deriving Repr, Inhabited

/-- Why a vector or a store was refused. -/
inductive VectorError where
  | dimensionMismatch (expected got : Nat)
  | invalidEmbedding (detail : String)
  | invalidParameter (detail : String)
  deriving Repr, DecidableEq

namespace VectorError

def kind : VectorError → String
  | dimensionMismatch _ _ => "dimension_mismatch"
  | invalidEmbedding _ => "invalid_embedding"
  | invalidParameter _ => "invalid_parameter"

def message : VectorError → String
  | dimensionMismatch expected got => s!"Dimension mismatch: expected {expected}, got {got}"
  | invalidEmbedding detail => s!"Invalid embedding: {detail}"
  | invalidParameter detail => s!"Invalid parameter: {detail}"

end VectorError

namespace Vector

/-- Accept a vector of the right dimension whose components are all finite. -/
def validate (v : Vector) (dimension : Nat) : Except VectorError Unit :=
  if v.length ≠ dimension then .error (.dimensionMismatch dimension v.length)
  else if v.any fun x => !x.isFinite then .error (.invalidEmbedding "non-finite component")
  else .ok ()

/-- The sum of products, component by component. -/
def dot (a b : Vector) : Score :=
  (a.zip b).foldl (fun sum (x, y) => sum + x * y) 0

/-- The cosine of the angle between two vectors; 0 when one of them is zero or they differ in
    dimension. -/
def cosine (a b : Vector) : Score :=
  if a.length ≠ b.length || a.isEmpty then 0
  else
    let norms := (dot a a).sqrt * (dot b b).sqrt
    if norms == 0 then 0 else dot a b / norms

/-- One minus the cosine; 0 when one of the vectors is zero. -/
def cosineDistance (query stored : Vector) : Score :=
  let qq := dot query query
  let vv := dot stored stored
  if qq > 0 && vv > 0 then 1 - dot query stored / (qq * vv).sqrt else 0

end Vector

namespace Candidate

/-- Most similar first, and equally similar ones by id. -/
def le (a b : Candidate) : Bool :=
  Score.bestFirst (a.id, a.similarity) (b.id, b.similarity)

/-- The best `k` candidates in their order. -/
def best (k : Nat) (candidates : List Candidate) : List Candidate :=
  (candidates.mergeSort le).take k

end Candidate

abbrev Restriction := Option (Metadata → Bool)

/-- Whether a record passes a restriction. -/
def Restriction.admits (r : Restriction) (m : Metadata) : Bool :=
  match r with
  | none => true
  | some p => p m

end CodeSearch
