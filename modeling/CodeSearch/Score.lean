/-! # Scores

Scores are single-precision floats. They are compared in a total order of all floats, in which a
negative zero comes before zero and what is not a number at either end.
-/

namespace CodeSearch

abbrev Score := Float32

namespace Score

/-- Position in the total order. -/
def rank (x : Score) : Int :=
  let bits := x.toBits.toNat
  if bits < Nat.pow 2 31 then bits else -(bits - Nat.pow 2 31 : Nat) - 1

/-- Whether `a` does not come after `b` in the total order. -/
def le (a b : Score) : Bool :=
  a.rank ≤ b.rank

/-- The nearest score between `low` and `high`; what is not a number stays so. -/
def clamp (x low high : Score) : Score :=
  let x := if x < low then low else x
  if high < x then high else x

def sum (xs : List Score) : Score :=
  xs.foldl (· + ·) 0

/-- Best first, and equally good ones by id. -/
def bestFirst (a b : String × Score) : Bool :=
  if a.2.rank = b.2.rank then !(b.1 < a.1) else b.2.rank < a.2.rank

end Score

end CodeSearch
