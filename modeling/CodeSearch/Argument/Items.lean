import CodeSearch.Json.Reader
import CodeSearch.Text.Blank

/-! # The items of a list argument

A list can be given as an array, as an array or object that is written in a text, or as a single
item. Arrays inside arrays are opened, and nulls and blank texts are no items.
-/

namespace CodeSearch.Argument

/-- The array or object that is written in a text. -/
def written? (s : String) : Option Json :=
  match Json.ofText? (Text.trim s) with
  | some (.arr vs) => some (.arr vs)
  | some (.obj members) => some (.obj members)
  | _ => none

mutual

/-- A measure that is less for the items of an array than for the array, and less for what is
    written in a text than for the text. -/
def weight : Json → Nat
  | .str s => s.length + 1
  | .arr vs => weightOfAll vs + 1
  | _ => 1

def weightOfAll : List Json → Nat
  | [] => 0
  | v :: vs => weight v + weightOfAll vs + 1

end

/-- What is written in a text. It weighs less than the text; that it does is looked at here, so that
    looking into it comes to an end. -/
def lighter? (s : String) : Option { v : Json // weight v < weight (.str s) } :=
  (written? s).bind fun v => if h : weight v < weight (.str s) then some ⟨v, h⟩ else none

mutual

def items : Json → List Json
  | .null => []
  | .arr vs => itemsOfAll vs
  | .str s =>
    (lighter? s).elim (if Text.isAllBlank s then [] else [.str s]) fun inner => items inner.val
  | v => [v]
termination_by v => weight v
decreasing_by
  · simp [weight]
  · exact inner.property

def itemsOfAll : List Json → List Json
  | [] => []
  | v :: vs => items v ++ itemsOfAll vs
termination_by vs => weightOfAll vs
decreasing_by
  all_goals simp only [weightOfAll]; omega

end

end CodeSearch.Argument
