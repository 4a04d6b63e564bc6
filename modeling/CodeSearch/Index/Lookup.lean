import CodeSearch.Index.State
import CodeSearch.Pattern.Detector

/-! # Looking things up in the index

Relations that a file leaves with a name are resolved over all files, by name and kind. Patterns
are looked for among the symbols of one file.
-/

namespace CodeSearch

/-- A relation with the definitions that it points at. -/
structure ResolvedRelation where
  kind : RelationKind
  /-- Name of the target as it is written. -/
  name : String
  targets : List SymbolId
  deriving Repr, DecidableEq, Inhabited

def RelationKind.wants (r : RelationKind) (k : SymbolKind) : Bool :=
  match r with
  | .calls => k == .function || k == .type
  | .inherits => k == .type
  | .imports => k.isDefinition

namespace IndexState

def definitionsNamed (s : IndexState) (kind : RelationKind) (name : String) : List SymbolId :=
  let simple := Text.lastSegment name
  (s.lookupName simple).filter fun id =>
    (s.symbol? id).any fun symbol =>
      kind.wants symbol.kind && Text.eqIgnoringAsciiCase symbol.name simple

/-- A relation as it stands now. A symbol that is held no more is no target. -/
def resolve (s : IndexState) (r : Relation) : ResolvedRelation :=
  match r.target with
  | .resolved id =>
    match s.symbol? id with
    | some target => ⟨r.kind, target.name, [id]⟩
    | none => ⟨r.kind, "", []⟩
  | .unresolved name => ⟨r.kind, name, s.definitionsNamed r.kind name⟩

def resolveRelations (s : IndexState) (symbol : Symbol) : List ResolvedRelation :=
  symbol.relations.map s.resolve

/-- How similar a symbol is to a question; one without a vector is as similar as what encloses
    it. -/
def similarity (s : IndexState) (query : Vector) (symbol : Symbol) : Score :=
  let own := s.vectors.similarityTo query symbol.id
  let outer := symbol.parent.bind fun id => s.vectors.similarityTo query id
  (own.or outer).getD 0

def subjectOf (s : IndexState) (symbol : Symbol) : Subject :=
  { symbol
    members := (s.symbolsOf symbol.unit.path).filter (·.parent == some symbol.id)
    bases := Subject.baseNames symbol fun id => (s.symbol? id).map (·.name) }

def patternsFor (s : IndexState) (d : Detector) (symbol : Symbol) : List PatternMatch :=
  if symbol.kind == .type || symbol.kind == .function then d.detect (s.subjectOf symbol) else []

end IndexState

end CodeSearch
