import CodeSearch.Symbol.Diff
import CodeSearch.Syntax.Json

/-! # Symbols as JSON

A symbol is an object of its parts. What is missing of one that is read is taken from a template.
-/

namespace CodeSearch

open Syntax

namespace ShapeNode

def flags (n : ShapeNode) : Nat :=
  n.onSelf.toNat + 2 * n.viaField.toNat + 4 * n.isStatic.toNat

def ofJson (j : Json) : ShapeNode :=
  let flags := j.natAt 4
  { kind := (NodeKind.ofName? (j.textAt 0)).getD .other
    depth := (j.natAt 1).toUInt32
    label := j.textAt? 2, receiver := j.textAt? 3
    onSelf := hasFlag flags 1, viaField := hasFlag flags 2, isStatic := hasFlag flags 4
    children := (j.item 5).items.map fun c => c.nat?.getD 0 }

def toJson (n : ShapeNode) : Json :=
  .arr [.str n.kind.name, .ofNat n.depth.toNat, .ofOption .str n.label, .ofOption .str n.receiver,
    .ofNat n.flags, .arr (n.children.map .ofNat)]

end ShapeNode

namespace Shape

/-- A complete shape, as the list of its nodes. -/
def ofJson (j : Json) : Shape :=
  { nodes := j.items.map ShapeNode.ofJson }

def toJson (s : Shape) : Json :=
  .obj [("hash", .str s.structuralHash), ("nodes", .arr (s.nodes.map ShapeNode.toJson)),
    ("truncated", .bool s.truncated)]

end Shape

namespace Relation

/-- A relation as its kind, whether it points at an id or a name, and which. -/
def ofJson (j : Json) : Relation :=
  let target := j.textAt 2
  { kind := (RelationKind.ofName? (j.textAt 0)).getD .calls
    target := if j.textAt 1 = "id" then .resolved target else .unresolved target }

def toJson (r : Relation) : Json :=
  match r.target with
  | .resolved id => .arr [.str r.kind.name, .str "id", .str id]
  | .unresolved name => .arr [.str r.kind.name, .str "name", .str name]

end Relation

/-- The language that a member names, if it names one. -/
def Language.ofMember? (j : Json) (key : String) : Option Language :=
  (j.text? key).bind Language.ofName?

/-- The kind that a member names, if it names one. -/
def SymbolKind.ofMember? (j : Json) (key : String) : Option SymbolKind :=
  (j.text? key).bind SymbolKind.ofName?

namespace Symbol

def ofJson (template : Symbol) (j : Json) : Symbol :=
  let name := j.textOr "name" template.name
  { id := j.textOr "id" template.id, name
    qualifiedName := j.textOr "qualified_name" name
    kind := (SymbolKind.ofMember? j "kind").getD template.kind
    language := (Language.ofMember? j "language").getD template.language
    unit := ⟨j.textOr "path" template.unit.path, j.natOr "version" template.unit.version⟩
    span := .ofJson (j.member "span")
    signature := j.textOr "signature" template.signature
    bodyHash := j.textOr "body_hash" template.bodyHash
    snippet := j.textOr "snippet" template.snippet
    parent := j.text? "parent"
    relations := (j.list "relations").map Relation.ofJson
    shape := (j.member "shape").arr?.map fun _ => Shape.ofJson (j.member "shape")
    modifiedAt := (j.time? "modified_at").getD template.modifiedAt
    author := j.text? "author" }

def toJson (s : Symbol) : Json :=
  .obj [("author", .ofOption .str s.author), ("body_hash", .str s.bodyHash), ("id", .str s.id),
    ("kind", .str s.kind.name), ("language", .str s.language.name),
    ("modified_at", .ofTime s.modifiedAt), ("name", .str s.name),
    ("parent", .ofOption .str s.parent), ("path", .str s.unit.path),
    ("qualified_name", .str s.qualifiedName), ("relations", .arr (s.relations.map Relation.toJson)),
    ("shape", .ofOption Shape.toJson s.shape), ("signature", .str s.signature),
    ("snippet", .str s.snippet), ("span", s.span.toJson), ("version", .ofNat s.unit.version)]

/-- What tells a symbol from others, without its text. -/
def brief (s : Symbol) : Json :=
  .arr [.str s.id, .str s.kind.name, .str s.qualifiedName, .str s.unit.path, .ofNat s.unit.version,
    s.span.toJson, .ofOption .str s.parent, .ofTime s.modifiedAt, .ofOption .str s.author]

end Symbol

namespace SymbolDiff

def toJson (d : SymbolDiff) : Json :=
  let written (symbols : List Symbol) : Json := .arr (symbols.map Symbol.toJson)
  .obj [("added", written d.added), ("changed", .ofTexts (d.changed.map (·.id))),
    ("current", .ofTexts (d.current.map (·.id))), ("modified", written d.modified),
    ("noop", .bool d.isNoop), ("removed", written d.removed), ("unchanged", written d.unchanged)]

end SymbolDiff

end CodeSearch
