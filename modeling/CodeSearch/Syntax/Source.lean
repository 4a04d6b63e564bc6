import CodeSearch.Digest.Blake3
import CodeSearch.Grammar.Go
import CodeSearch.Grammar.JavaScript
import CodeSearch.Grammar.Python
import CodeSearch.Grammar.Rust
import CodeSearch.Language
import CodeSearch.ParseError
import CodeSearch.Syntax.Ast

/-! # Sources and parsed sources

A source is a text with the concrete trees that the grammars make of it. Parsing normalizes the
tree of one language and notes the first syntax error.
-/

namespace CodeSearch

/-- How the trees of a language are read. -/
def Language.grammar : Language → Grammar
  | .python => Grammar.python
  | .javascript => Grammar.javascript
  | .typescript => Grammar.javascript
  | .go => Grammar.go
  | .rust => Grammar.rust

namespace Syntax

/-- A text with its concrete tree in each language in which it can be read. -/
structure Source where
  text : String := ""
  trees : Keyed Language Concrete := []
  deriving Repr, Inhabited

namespace Source

/-- The node type of a whole file. -/
def rootKind : Language → String
  | .python => "module"
  | .javascript | .typescript => "program"
  | .go | .rust => "source_file"

/-- The concrete tree in a language; a text without one has only the root. -/
def tree (s : Source) (language : Language) : Concrete :=
  (Keyed.get? s.trees language).getD
    (.node { kind := rootKind language, span := ⟨0, s.text.utf8ByteSize, 1, 1⟩ } [])

end Source

/-- A source that was read in one language. -/
structure Parsed where
  ast : Ast
  language : Language
  text : String
  contentHash : String
  /-- The first erroneous or missing node. -/
  errorAt : Option Span
  deriving Repr, Inhabited

namespace Parsed

def hasError (p : Parsed) : Bool :=
  p.errorAt.isSome

def ofSource (source : Source) (language : Language) (contentHash : String) : Parsed :=
  let tree := source.tree language
  { ast := Ast.ofConcrete language.grammar source.text tree
    language, text := source.text, contentHash, errorAt := tree.firstError? }

/-- The error of a source whose syntax errors are not accepted. -/
def rejection? (p : Parsed) : Option ParseError :=
  p.errorAt.map fun span =>
    .syntaxError span.startByte span.startLine s!"{p.language.name} source contains syntax errors"

end Parsed

end Syntax

end CodeSearch
