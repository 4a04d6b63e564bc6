import CodeSearch.FilePath
import CodeSearch.Text.Blank
import CodeSearch.Text.Case

/-! # Languages

The languages whose sources can be indexed, and how a name, an extension or a path selects one.
-/

namespace CodeSearch

/-- A language whose sources can be indexed. -/
inductive Language where
  | python
  | javascript
  | typescript
  | go
  | rust
  deriving Repr, DecidableEq, Inhabited

namespace Language

def all : List Language :=
  [python, javascript, typescript, go, rust]

def name : Language → String
  | python => "python"
  | javascript => "javascript"
  | typescript => "typescript"
  | go => "go"
  | rust => "rust"

/-- Position in the list of all languages; lists of languages are sorted by it. -/
def rank : Language → Nat
  | python => 0
  | javascript => 1
  | typescript => 2
  | go => 3
  | rust => 4

def ofName? (s : String) : Option Language :=
  all.find? (·.name == s)

/-- The language of a file extension, in any letter case. -/
def ofExtension? (ext : String) : Option Language :=
  match Text.lower ext with
  | "py" | "pyi" => some python
  | "js" | "jsx" | "mjs" | "cjs" => some javascript
  | "ts" | "tsx" | "mts" | "cts" => some typescript
  | "go" => some go
  | "rs" => some rust
  | _ => none

/-- The language of a path, by its extension. -/
def ofPath? (path : String) : Option Language :=
  (FilePath.extension? path).bind ofExtension?

/-- The language that a user names: a canonical name, an alias or an extension, with or without
    dots before it. -/
def ofText? (s : String) : Option Language :=
  match Text.lower (Text.trim s) with
  | "python" | "python3" => some python
  | "javascript" | "node" => some javascript
  | "typescript" => some typescript
  | "go" | "golang" => some go
  | "rust" => some rust
  | other => ofExtension? (Text.trimStartOf (· == '.') other)

/-- The language to read a file in, among the registered ones: the hint if there is one, else
    the language of the path. -/
def resolve (registered : List Language) (path : String) (hint : Option Language) :
    Option Language :=
  (hint.or (ofPath? path)).filter (· ∈ registered)

/-- The registered languages, each once, in their fixed order. -/
def sorted (registered : List Language) : List Language :=
  all.filter (· ∈ registered)

end Language

end CodeSearch
