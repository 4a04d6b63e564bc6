import CodeSearch.ParseError
import CodeSearch.Query
import CodeSearch.Vector.Basic

/-! # Errors of the index

Why a file was not indexed or a question not answered. Some of these errors mark the file as
failed.
-/

namespace CodeSearch

/-- What went wrong with a failed file. -/
inductive FailureKind where
  /-- The source could not be read. -/
  | parse
  /-- The texts could not be embedded. -/
  | embedding
  /-- The index itself failed. -/
  | internal
  deriving Repr, DecidableEq, Inhabited

namespace FailureKind

def name : FailureKind → String
  | parse => "parse"
  | embedding => "embedding"
  | internal => "internal"

def ofName? (s : String) : Option FailureKind :=
  [parse, embedding, internal].find? (·.name == s)

/-- Whether the same content may do better later. -/
def isRetryable : FailureKind → Bool
  | parse => false
  | embedding | internal => true

end FailureKind

/-- Why an operation of the index failed. -/
inductive IndexError where
  | parse (path : String) (cause : ParseError)
  /-- The texts of a file, or a question, could not be embedded. -/
  | embedding (path detail : String)
  | filter (cause : FilterError)
  | query (cause : QueryError)
  /-- A symbol belongs to another version of its file than the one that is held. -/
  | inconsistent (id : SymbolId) (path : String) (version : Nat) (held : Option Nat)
  /-- No language is known for a path. -/
  | unsupported (path : String)
  | unknownSymbol (id : SymbolId)
  | invalidArgument (detail : String)
  | config (detail : String)
  | vector (cause : VectorError)
  | internal (detail : String)
  deriving Repr

namespace IndexError

/-- How the file fails by this error, if it does. -/
def failureKind : IndexError → Option FailureKind
  | parse _ _ => some .parse
  | embedding _ _ => some .embedding
  | vector _ | internal _ => some .internal
  | _ => none

def kind : IndexError → String
  | parse _ _ => "parse"
  | embedding _ _ => "embedding"
  | filter _ => "filter_validation"
  | query _ => "query"
  | inconsistent _ _ _ _ => "index_consistency"
  | unsupported _ => "unsupported"
  | unknownSymbol _ => "unknown_symbol"
  | invalidArgument _ => "invalid_argument"
  | config _ => "config"
  | vector _ => "vector"
  | internal _ => "internal"

def message : IndexError → String
  | parse path cause =>
    let reason := cause.message
    s!"parse error in {path}: {reason}"
  | embedding path detail => s!"embedding failed for {path}: {detail}"
  | filter cause => cause.message
  | query cause => cause.message
  | inconsistent id path version held =>
    let current := match held with
      | some n => s!"Some({n})"
      | none => "None"
    s!"symbol {id} references {path} v{version}, index holds {current}"
  | unsupported path => s!"unsupported language for {path}"
  | unknownSymbol id => s!"unknown symbol {id}"
  | invalidArgument detail => s!"invalid argument: {detail}"
  | config detail => s!"configuration error: {detail}"
  | vector cause =>
    let reason := cause.message
    s!"vector index error: {reason}"
  | internal detail => s!"internal error: {detail}"

end IndexError

end CodeSearch
