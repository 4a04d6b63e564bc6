import CodeSearch.Decimal.Reader
import CodeSearch.Filter.Basic
import CodeSearch.ParseError

/-! # Reading filters

A filter is written as a key and a value. A date range is two bounds with two dots between them;
each bound is an instant or a date, or is left out. A date as upper bound includes the whole day.
-/

namespace CodeSearch

open Time (Instant Date)

namespace Filter

/-- Read a bound of a date range; a date as bound stands for the instant that `ofDate` gives. -/
def readBound (ofDate : Date → Instant) (text : String) : Except String (Option Instant) :=
  let text := Text.trim text
  if text.isEmpty then .ok none
  else
    match Instant.ofRfc3339? text with
    | some t => .ok (some t)
    | none =>
      match Date.ofText text with
      | .ok d => .ok (some (ofDate d))
      | .error cause =>
        let reason := cause.message
        .error s!"bad date '{text}': {reason}"

/-- Read the value of a filter that is not empty. The error says what is wrong with it. -/
def readValue (type : FilterType) (value : String) : Except String Filter :=
  match type with
  | .language =>
    match Language.ofText? value with
    | some l => .ok (language l)
    | none => .error (ParseError.unsupportedLanguage value).message
  | .pathInclude => .ok (pathInclude value)
  | .pathExclude => .ok (pathExclude value)
  | .author => .ok (author value)
  | .kind =>
    match SymbolKind.ofText? value with
    | some k => .ok (kind k)
    | none => .error (SymbolKind.unknownMessage value)
  | .dateRange =>
    match Text.cutOn? value ".." with
    | none => .error "expected 'from..to'"
    | some (start, stop) => do
      pure (dateRange (← readBound Instant.startOf start) (← readBound Instant.endOf stop))
  | .directory => .ok (directory value)
  | .patternType =>
    match Pattern.ofText? value with
    | some p => .ok (patternType p)
    | none => .error (Pattern.unknownMessage value)
  | .minConfidence =>
    match Decimal.Literal.ofText? value with
    | some l => .ok (minConfidence l.toFloat32)
    | none => .error "invalid float literal"

def read (key value : String) : Except FilterError Filter :=
  match FilterType.ofKey? key with
  | none => .error (.unknownType key)
  | some type =>
    let value := Text.trim value
    if value.isEmpty then .error (.emptyValue type)
    else
      match readValue type value with
      | .error reason => .error (.invalidValue type value reason)
      | .ok f => f.validate.map fun _ => f

end Filter

end CodeSearch
