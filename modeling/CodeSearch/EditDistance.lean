/-! # Edit distance

The least number of insertions, deletions and replacements that turn one list into another. The
table of distances between all beginnings is computed row by row, and only one row is kept.
-/

namespace CodeSearch

variable {α : Type} [DecidableEq α]

namespace EditDistance

/-- The rest of the row of `x`, from the column of `ys` on. `previous` is the row before it, from
    the column before that on, and `left` the entry just computed. -/
def rowFrom (x : α) : (ys : List α) → (previous : List Nat) → (left : Nat) → List Nat
  | y :: ys, diagonal :: up :: rest, left =>
    let cost := if x = y then 0 else 1
    let entry := min (min (up + 1) (left + 1)) (diagonal + cost)
    entry :: rowFrom x ys (up :: rest) entry
  | _, _, _ => []

/-- The row after `previous`, for the next element `x`. Its first entry is the number of elements
    so far. -/
def nextRow (b : List α) (previous : List Nat) (x : α) : List Nat :=
  let first := previous.headD 0 + 1
  first :: rowFrom x b previous first

/-- The row before any element: as many insertions as elements of `b`. -/
def firstRow (b : List α) : List Nat :=
  List.range (b.length + 1)

end EditDistance

def editDistance (a b : List α) : Nat :=
  (a.foldl (EditDistance.nextRow b) (EditDistance.firstRow b)).getLastD 0

end CodeSearch
