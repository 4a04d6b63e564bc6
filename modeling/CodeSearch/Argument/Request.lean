import CodeSearch.Argument.Basic
import CodeSearch.Argument.Items
import CodeSearch.Index.Search

/-! # Requests from arguments

Filters are given as an object of keys and values, as a list of objects with a type and a value,
or as a list of texts `key=value`.
-/

namespace CodeSearch

namespace Argument

def valueText (key : String) : Json → Except ArgumentError String
  | .str s => .ok s
  | .int n => .ok (Json.int n).render
  | .float x => .ok (Json.float x).render
  | .bool b => .ok (Json.bool b).render
  | v => .error (.invalidType key "a string or number" v)

def readFilter (key text : String) : Except ArgumentError Filter :=
  (Filter.read key text).mapError .filter

/-- A filter for each value; without one the key is refused. -/
def filtersOfValue (key : String) (value : Json) : Except ArgumentError (List Filter) :=
  match items value with
  | [] =>
    match FilterType.ofKey? key with
    | none => .error (.filter (.unknownType key))
    | some type => .error (.filter (.emptyValue type))
  | values => values.mapM fun v => do readFilter key (← valueText key v)

/-- The filters of an object of keys and values. -/
def filtersOfMembers (members : List (String × Json)) : Except ArgumentError (List Filter) := do
  let lists ← members.mapM fun (key, value) => filtersOfValue key value
  pure lists.flatten

/-- The filters of an object with a type and a value, or else of one of keys and values. -/
def filtersOfObject (members : List (String × Json)) : Except ArgumentError (List Filter) :=
  match (Json.obj members).get? "type", (Json.obj members).get? "value" with
  | some (.str key), some value => filtersOfValue key value
  | _, _ => filtersOfMembers members

def filtersOfItem : Json → Except ArgumentError (List Filter)
  | .obj members => filtersOfObject members
  | .str pair =>
    match Text.cut? pair '=' with
    | some (key, text) => do pure [← readFilter key text]
    | none => .error (.invalidType "filters" "'key=value' entries" (.str pair))
  | v => .error (.invalidType "filters" "filter objects or 'key=value' strings" v)

def filters (v : Json) : Except ArgumentError (List Filter) :=
  match v with
  | .obj members => filtersOfMembers members
  | v => do
    let lists ← (items v).mapM filtersOfItem
    pure lists.flatten

end Argument

/-- A question from loose arguments. The text of the question is not looked at. -/
def QueryRequest.ofArguments (args : Json) : Except ArgumentError QueryRequest := do
  let text ← Argument.text args ["query", "text"]
  let filters ←
    match Argument.find? args ["filters", "filter"] with
    | some (_, v) => Argument.filters v
    | none => pure []
  let topK ← Argument.nat? args ["top_k", "limit"]
  let includePatterns ← Argument.flag? args ["include_patterns", "patterns"]
  pure { text, filters, topK, includePatterns := includePatterns.getD false }

/-- What similar symbols are asked for. -/
structure SimilarRequest where
  symbolId : SymbolId
  /-- Least similarity. -/
  threshold : Score
  deriving Repr, BEq, Inhabited

namespace SimilarRequest

/-- Least similarity unless told otherwise. -/
def defaultThreshold : Score := 0.8

def ofArguments (args : Json) : Except ArgumentError SimilarRequest := do
  let symbolId ← Argument.text args ["symbol_id", "symbol"]
  let threshold ← Argument.score? args ["threshold", "min_similarity"]
  pure ⟨symbolId, threshold.getD defaultThreshold⟩

end SimilarRequest

end CodeSearch
