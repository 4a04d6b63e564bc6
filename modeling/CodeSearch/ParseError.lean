/-! # Errors of reading a source -/

namespace CodeSearch

/-- Why a source could not be read. -/
inductive ParseError where
  /-- No tree could be made. -/
  | parseFailed (detail : String)
  /-- The first erroneous node is at byte `position`. -/
  | syntaxError (position line : Nat) (detail : String)
  | unsupportedLanguage (name : String)
  /-- The grammar of the language cannot be used. -/
  | grammar (detail : String)
  deriving Repr, DecidableEq

namespace ParseError

def kind : ParseError → String
  | parseFailed _ => "parse_failed"
  | syntaxError _ _ _ => "syntax_error"
  | unsupportedLanguage _ => "unsupported_language"
  | grammar _ => "grammar"

def message : ParseError → String
  | parseFailed detail => s!"Failed to parse source: {detail}"
  | syntaxError position line detail =>
    s!"Invalid syntax at line {line} (byte {position}): {detail}"
  | unsupportedLanguage name => s!"Unsupported language: {name}"
  | grammar detail => s!"Grammar error: {detail}"

end ParseError

end CodeSearch
