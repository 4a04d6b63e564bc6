import CodeSearch.Decimal.Text
import CodeSearch.Glob
import CodeSearch.Pattern.Basic
import CodeSearch.Time.DateText

/-! # Filters

A filter restricts a query to symbols with some trait. Most traits are kept in the metadata of a
record; patterns and their confidence are looked for when the query runs.
-/

namespace CodeSearch

open Time (Instant)

inductive FilterType where
  | language
  | pathInclude
  | pathExclude
  | author
  | kind
  | dateRange
  | directory
  | patternType
  | minConfidence
  deriving Repr, DecidableEq, Inhabited

namespace FilterType

def name : FilterType → String
  | language => "language"
  | pathInclude => "path_include"
  | pathExclude => "path_exclude"
  | author => "author"
  | kind => "kind"
  | dateRange => "date_range"
  | directory => "directory"
  | patternType => "pattern_type"
  | minConfidence => "min_confidence"

/-- The type of a key, in any letter case and with hyphens or underscores. -/
def ofKey? (key : String) : Option FilterType :=
  match Text.replaceChar (Text.lower (Text.trim key)) '-' '_' with
  | "language" | "lang" => some language
  | "path" | "path_include" | "include" | "glob" => some pathInclude
  | "path_exclude" | "exclude" | "not_path" => some pathExclude
  | "author" => some author
  | "kind" | "symbol_kind" | "symbol_type" => some kind
  | "date_range" | "date" | "modified" => some dateRange
  | "directory" | "dir" => some directory
  | "pattern_type" | "pattern" => some patternType
  | "min_confidence" | "confidence" => some minConfidence
  | _ => none

def looksAtPatterns : FilterType → Bool
  | patternType | minConfidence => true
  | _ => false

end FilterType

/-- A restriction of a query. -/
inductive Filter where
  | language (l : Language)
  | pathInclude (glob : String)
  /-- The path is not described by a glob. -/
  | pathExclude (glob : String)
  | author (name : String)
  | kind (k : SymbolKind)
  /-- Last modified between two instants, both included; an end can be open. -/
  | dateRange (earliest latest : Option Instant)
  /-- The path lies below a directory. -/
  | directory (dir : String)
  | patternType (p : Pattern)
  | minConfidence (c : Score)
  deriving Repr, BEq, Inhabited

/-- Why a filter was refused. -/
inductive FilterError where
  | unknownType (key : String)
  | emptyValue (type : FilterType)
  | invalidValue (type : FilterType) (value reason : String)
  | invalidGlob (glob : String) (cause : GlobError)
  | confidenceOutOfRange (c : Score)
  | invertedDateRange (earliest latest : Instant)
  deriving Repr

namespace FilterError

/-- The kind of error in one word. -/
def reason : FilterError → String
  | unknownType _ => "unknown_type"
  | emptyValue _ => "empty_value"
  | invalidValue _ _ _ => "invalid_value"
  | invalidGlob _ _ => "invalid_glob"
  | confidenceOutOfRange _ => "confidence_out_of_range"
  | invertedDateRange _ _ => "inverted_date_range"

def message : FilterError → String
  | unknownType key => s!"unknown filter type '{key}'"
  | emptyValue type =>
    let name := type.name
    s!"empty value for filter '{name}'"
  | invalidValue type value reason =>
    let name := type.name
    s!"invalid value '{value}' for filter '{name}': {reason}"
  | invalidGlob glob cause =>
    let reason := cause.message
    s!"invalid glob '{glob}': {reason}"
  | confidenceOutOfRange c =>
    let number := (Decimal.Parts.ofFloat32 c).plain
    s!"min_confidence {number} is outside [0, 1]"
  | invertedDateRange earliest latest =>
    let start := earliest.toText
    let stop := latest.toText
    s!"date range ends ({stop}) before it starts ({start})"

end FilterError

namespace Filter

def type : Filter → FilterType
  | language _ => .language
  | pathInclude _ => .pathInclude
  | pathExclude _ => .pathExclude
  | author _ => .author
  | kind _ => .kind
  | dateRange _ _ => .dateRange
  | directory _ => .directory
  | patternType _ => .patternType
  | minConfidence _ => .minConfidence

def globOf (glob : String) : Except FilterError Glob :=
  match Glob.ofText glob with
  | .ok g => .ok g
  | .error cause => .error (.invalidGlob glob cause)

/-- Accept a filter whose value makes sense. -/
def validate (f : Filter) : Except FilterError Unit :=
  match f with
  | pathInclude glob | pathExclude glob => (globOf glob).map fun _ => ()
  | author text | directory text =>
    if Text.isAllBlank text then .error (.emptyValue f.type) else .ok ()
  | dateRange (some earliest) (some latest) =>
    if latest.lt earliest then .error (.invertedDateRange earliest latest) else .ok ()
  | minConfidence c =>
    if c.isFinite && 0 ≤ c && c ≤ 1 then .ok () else .error (.confidenceOutOfRange c)
  | _ => .ok ()

end Filter

end CodeSearch
