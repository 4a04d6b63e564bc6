import CodeSearch.Json.Members
import CodeSearch.Syntax.Source

/-! # Sources as JSON

A source is an object of its text and its trees. A tree is the list of its nodes in preorder, each
as a row of depth, node type, field, flags, bytes and lines; here the first line of a text is
line 0.
-/

namespace CodeSearch.Syntax

namespace Span

/-- Bytes and lines in one array. -/
def ofJson (j : Json) : Span :=
  ⟨j.natAt 0, j.natAt 1, j.natAt 2, j.natAt 3⟩

def toJson (s : Span) : Json :=
  .arr [.ofNat s.startByte, .ofNat s.endByte, .ofNat s.startLine, .ofNat s.endLine]

end Span

/-- Whether the bit of weight `weight` is set. -/
def hasFlag (flags weight : Nat) : Bool :=
  flags / weight % 2 == 1

/-- A node with its depth. -/
def Label.ofRow (row : Json) : Nat × Label :=
  let flags := row.natAt 3
  (row.natAt 0,
    { kind := row.textAt 1, field := row.textAt? 2
      named := hasFlag flags 1, error := hasFlag flags 2
      missing := hasFlag flags 4, hasError := hasFlag flags 8
      span := ⟨row.natAt 4, row.natAt 5, row.natAt 6 + 1, row.natAt 7 + 1⟩ })

/-- The trees of an object that has one under the name of each language. -/
def treesOfJson (j : Json) : Keyed Language Concrete :=
  match j with
  | .obj members => members.filterMap fun (name, rows) => do
    let language ← Language.ofName? name
    let tree ← Concrete.ofPreorder? (rows.items.map Label.ofRow)
    some (language, tree)
  | _ => []

def Source.ofJson (j : Json) : Source :=
  { text := j.text "text", trees := treesOfJson (j.member "cst") }

end CodeSearch.Syntax
