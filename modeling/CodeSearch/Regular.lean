/-! # Regular expressions

Expressions over the elements of a list, with assertions about the elements on both sides of a
position. Matching follows all possibilities at once: an expression leads from a position to the
list of positions where a match can end.
-/

namespace CodeSearch

/-- A regular expression over elements of a type. -/
inductive Regular (α : Type) where
  /-- One element of a class. -/
  | one (p : α → Bool)
  /-- Nothing, where the elements before and behind satisfy `p`. -/
  | between (p : Option α → Option α → Bool)
  /-- Nothing. -/
  | empty
  | seq (a b : Regular α)
  | alt (a b : Regular α)
  /-- Any number of repetitions. -/
  | many (a : Regular α)

namespace Regular

variable {α : Type}

/-- All expressions one after the other. -/
def all : List (Regular α) → Regular α
  | [] => empty
  | [a] => a
  | a :: rest => seq a (all rest)

/-- One of the expressions; nothing at all when there is none. -/
def any : List (Regular α) → Regular α
  | [] => one fun _ => false
  | [a] => a
  | a :: rest => alt a (any rest)

/-- The expression or nothing. -/
def optional (a : Regular α) : Regular α :=
  alt a empty

/-- At least one repetition. -/
def some (a : Regular α) : Regular α :=
  seq a (many a)

/-- The positions that a step reaches from some of the given ones, or from those that it reaches,
    and so on for as many rounds. -/
def closure (step : Nat → List Nat) : (rounds : Nat) → (reached fresh : List Nat) → List Nat
  | 0, reached, _ => reached
  | rounds + 1, reached, fresh =>
    match ((fresh.flatMap step).eraseDups).filter (!reached.contains ·) with
    | [] => reached
    | new => closure step rounds (reached ++ new) new

/-- The element before a position. -/
def before (xs : Array α) (i : Nat) : Option α :=
  if i = 0 then none else xs[i - 1]?

/-- The positions where a match that begins at a position can end. -/
def ends (xs : Array α) : Regular α → Nat → List Nat
  | one p, i =>
    match xs[i]? with
    | Option.some x => if p x then [i + 1] else []
    | none => []
  | between p, i => if p (before xs i) xs[i]? then [i] else []
  | empty, i => [i]
  | seq a b, i => ((ends xs a i).flatMap (ends xs b)).eraseDups
  | alt a b, i => (ends xs a i ++ ends xs b i).eraseDups
  | many a, i => closure (ends xs a) (xs.size + 1) [i] [i]

def matchesAll (e : Regular α) (xs : List α) : Bool :=
  let xs := xs.toArray
  (ends xs e 0).contains xs.size

/-- Whether some part of the list is a match. -/
def occursIn (e : Regular α) (xs : List α) : Bool :=
  let xs := xs.toArray
  (List.range (xs.size + 1)).any fun i => !(ends xs e i).isEmpty

end Regular

end CodeSearch
