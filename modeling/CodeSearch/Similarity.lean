import CodeSearch.EditDistance
import CodeSearch.Score
import CodeSearch.Symbol.Basic

/-! # Similar shapes

Two shapes are as similar as few edits lead from one skeleton to the other, measured against the
longer one. Since the lengths alone bound the similarity from above, most candidates need no
distance.

Similarity is measured in scores. The rules are the same in any numbers that can be divided and
compared.
-/

namespace CodeSearch

/-- Numbers in which similarity can be measured. -/
class Scale (F : Type) where
  ofNat : Nat → F
  /-- The order of a listing, which is total also where `<` is not. -/
  order : F → F → Ordering

instance : Scale Score where
  ofNat := Float32.ofNat
  order a b := compare a.rank b.rank

namespace Similarity

open Scale (ofNat)

variable {F : Type} [Sub F] [Div F] [LT F] [LE F] [DecidableLT F] [DecidableLE F] [Scale F]

/-- Greatest similarity of shapes of two sizes. -/
def sizeBound (a b : Nat) : F :=
  if max a b = 0 then ofNat 1 else ofNat (min a b) / ofNat (max a b)

/-- The part of the longer list that edits leave alone. -/
def ofLists {α : Type} [DecidableEq α] (a b : List α) : F :=
  let longest := max a.length b.length
  if longest = 0 then ofNat 1
  else ofNat 1 - ofNat (editDistance a b) / ofNat longest

/-- Similarity of two shapes; shapes of one hash are alike. -/
def ofShapes (a b : Shape) : F :=
  if a.structuralHash = b.structuralHash then ofNat 1 else ofLists a.skeleton b.skeleton

/-- The similarity, if it reaches the threshold. -/
def atLeast? (a b : Shape) (threshold : F) : Option F :=
  if sizeBound a.size b.size < threshold then none
  else
    let score := ofShapes a b
    if threshold ≤ score then some score else none

/-- Functions are compared with functions and types with types. -/
def comparable (a b : SymbolKind) : Bool :=
  a == b && (a == .function || a == .type)

/-- The nearest threshold from 0 to 1. -/
def clamp (threshold : F) : F :=
  let threshold := if threshold < ofNat 0 then ofNat 0 else threshold
  if ofNat 1 < threshold then ofNat 1 else threshold

/-- Most similar first, and equally similar ones by id. -/
def bestFirst (a b : SymbolId × F) : Bool :=
  ((Scale.order b.2 a.2).then (compare a.1 b.1)).isLE

/-- The candidates whose shape is similar to that of `target`, most similar first. -/
def find (target : Symbol) (candidates : List Symbol) (threshold : F) : List (SymbolId × F) :=
  match target.shape with
  | none => []
  | some shape =>
    let threshold := clamp threshold
    let pool := candidates.filter fun c => c.id != target.id && comparable c.kind target.kind
    let found := pool.filterMap fun c => do
      let score ← atLeast? shape (← c.shape) threshold
      some (c.id, score)
    found.mergeSort bestFirst

end Similarity

end CodeSearch
