import CodeSearch.Digest.Blake3
import CodeSearch.Language
import CodeSearch.Shape
import CodeSearch.Time.Instant

/-! # Symbols

A symbol is a named piece of a source: a definition, an import or a call. Its id is derived from
where it is named, so that it survives edits elsewhere in the file.
-/

namespace CodeSearch

open Syntax (Span)
open Time (Instant)

inductive SymbolKind where
  | function
  /-- Class, struct, enumeration, interface or trait. -/
  | type
  | importing
  | call
  /-- Variable outside of functions. -/
  | var
  deriving Repr, DecidableEq, Inhabited

namespace SymbolKind

def name : SymbolKind → String
  | function => "function"
  | type => "class"
  | importing => "import"
  | call => "call"
  | var => "variable"

def all : List SymbolKind :=
  [function, type, importing, call, var]

/-- Position in the list of all kinds. -/
def rank : SymbolKind → Nat
  | function => 0
  | type => 1
  | importing => 2
  | call => 3
  | var => 4

def ofName? (s : String) : Option SymbolKind :=
  all.find? (·.name == s)

/-- The kind that a user names, in any letter case. -/
def ofText? (s : String) : Option SymbolKind :=
  match Text.lower (Text.trim s) with
  | "function" | "func" | "fn" | "method" | "def" => some function
  | "class" | "struct" | "type" | "interface" | "trait" | "enum" => some type
  | "import" | "use" => some importing
  | "call" => some call
  | "variable" | "var" | "const" | "constant" | "field" => some var
  | _ => none

/-- What is said of a text that names no kind. -/
def unknownMessage (s : String) : String :=
  let lowered := Text.lower (Text.trim s)
  s!"unknown symbol kind '{lowered}'"

/-- Whether symbols of this kind define something, rather than refer to it. -/
def isDefinition : SymbolKind → Bool
  | function | type | var => true
  | importing | call => false

end SymbolKind

/-- Identity of a symbol, stable over edits. -/
abbrev SymbolId := String

namespace SymbolId

def keyBytes (path : String) (kind : SymbolKind) (qualifiedName : String) (ordinal : Nat) :
    List UInt8 :=
  Digest.utf8 path ++ 0 :: Digest.utf8 kind.name ++ 0 :: Digest.utf8 qualifiedName ++
    0 :: (List.range 8).map fun i => (ordinal / Nat.pow 256 i).toUInt8

/-- The id of the `ordinal`-th symbol of a kind and name in a file. -/
def derive (path : String) (kind : SymbolKind) (qualifiedName : String) (ordinal : Nat) :
    SymbolId :=
  Text.takeChars 32 (Digest.Blake3.hexHash (keyBytes path kind qualifiedName ordinal))

end SymbolId

inductive RelationKind where
  | calls
  | imports
  | inherits
  deriving Repr, DecidableEq, Inhabited

namespace RelationKind

def name : RelationKind → String
  | calls => "calls"
  | imports => "imports"
  | inherits => "extends"

def ofName? (s : String) : Option RelationKind :=
  [calls, imports, inherits].find? (·.name == s)

end RelationKind

/-- What a relation points at: a symbol, or a name that was found nowhere in the file. -/
inductive RelationTarget where
  | resolved (id : SymbolId)
  | unresolved (name : String)
  deriving Repr, DecidableEq, Inhabited

/-- A relation that starts at a symbol. -/
structure Relation where
  kind : RelationKind
  target : RelationTarget
  deriving Repr, DecidableEq, Inhabited

namespace Relation

/-- The name a relation is left with while it has no symbol. -/
def name? (r : Relation) : Option String :=
  match r.target with
  | .unresolved name => some name
  | .resolved _ => none

def targetId? (r : Relation) : Option SymbolId :=
  match r.target with
  | .resolved id => some id
  | .unresolved _ => none

/-- The relation with another id for the symbol that it points at. -/
def rename (f : SymbolId → SymbolId) (r : Relation) : Relation :=
  match r.target with
  | .resolved id => { r with target := .resolved (f id) }
  | .unresolved _ => r

end Relation

/-- The version of a file that a symbol belongs to. -/
structure UnitRef where
  path : String
  version : Nat
  deriving Repr, DecidableEq, Inhabited

/-- A named piece of a source. -/
structure Symbol where
  id : SymbolId
  name : String
  qualifiedName : String
  kind : SymbolKind
  language : Language
  unit : UnitRef
  span : Span
  /-- First line of the text. -/
  signature : String
  /-- Content hash of the text. -/
  bodyHash : String
  /-- Leading part of the text. -/
  snippet : String
  /-- Enclosing definition. -/
  parent : Option SymbolId
  relations : List Relation
  /-- Shape of a function or type. -/
  shape : Option Shape
  modifiedAt : Instant
  author : Option String
  deriving Repr, DecidableEq, Inhabited

namespace Symbol

/-- The symbol with other ids for itself, its parent and what its relations point at. -/
def rename (f : SymbolId → SymbolId) (s : Symbol) : Symbol :=
  { s with id := f s.id, parent := s.parent.map f, relations := s.relations.map (Relation.rename f) }

def unresolved (s : Symbol) (kind : RelationKind) : List String :=
  (s.relations.filter (·.kind == kind)).filterMap (·.name?)

def resolved (s : Symbol) (kind : RelationKind) : List SymbolId :=
  (s.relations.filter (·.kind == kind)).filterMap (·.targetId?)

end Symbol

end CodeSearch
