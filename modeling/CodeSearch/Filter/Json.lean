import CodeSearch.Filter.Basic
import CodeSearch.Symbol.Json

/-! # Filters as JSON

A filter is an object of its type and its value. Nothing is said about whether the value makes
sense.
-/

namespace CodeSearch.Filter

def ofJson? (j : Json) : Option Filter :=
  let value := j.member "value"
  match j.text "type" with
  | "language" => (Language.ofMember? j "value").map language
  | "path_include" => value.str?.map pathInclude
  | "path_exclude" => value.str?.map pathExclude
  | "directory" => value.str?.map directory
  | "author" => value.str?.map author
  | "kind" => (SymbolKind.ofMember? j "value").map kind
  | "date_range" => some (dateRange (value.time? "from") (value.time? "to"))
  | "pattern_type" => (value.str?.bind Pattern.ofName?).map patternType
  | "min_confidence" => value.anyFloat?.map fun x => minConfidence x.toFloat32
  | _ => none

def value : Filter → Json
  | language l => .str l.name
  | pathInclude glob | pathExclude glob => .str glob
  | author text | directory text => .str text
  | kind k => .str k.name
  | dateRange earliest latest =>
    .obj [("from", .ofOption .ofTime earliest), ("to", .ofOption .ofTime latest)]
  | patternType p => .str p.name
  | minConfidence c => .float c.toFloat

def toJson (f : Filter) : Json :=
  .obj [("type", .str f.type.name), ("value", f.value)]

end CodeSearch.Filter
