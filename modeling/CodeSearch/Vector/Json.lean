import CodeSearch.Symbol.Json
import CodeSearch.Vector.Basic

/-! # Records as JSON -/

namespace CodeSearch

namespace Vector

/-- A vector as the array of its components. -/
def ofJson (j : Json) : Vector :=
  j.items.map fun x => (x.anyFloat?.getD 0).toFloat32

def toJson (v : Vector) : Json :=
  .arr (v.map fun x => .float x.toFloat)

end Vector

namespace Metadata

/-- What is missing is taken from a template. -/
def ofJson (template : Metadata) (j : Json) : Metadata :=
  { language := (Language.ofMember? j "language").getD template.language
    path := j.textOr "path" template.path
    kind := (SymbolKind.ofMember? j "kind").getD template.kind
    modifiedAt := (j.time? "modified_at").getD template.modifiedAt
    author := j.text? "author" }

def toJson (m : Metadata) : Json :=
  .obj [("author", .ofOption .str m.author), ("kind", .str m.kind.name),
    ("language", .str m.language.name), ("modified_at", .ofTime m.modifiedAt),
    ("path", .str m.path)]

end Metadata

namespace Record

def ofJson (template : Metadata) (j : Json) : Record :=
  ⟨j.text "id", .ofJson (j.member "vector"), .ofJson template (j.member "metadata")⟩

def toJson (r : Record) : Json :=
  .obj [("id", .str r.id), ("metadata", r.metadata.toJson), ("vector", r.vector.toJson)]

end Record

end CodeSearch
