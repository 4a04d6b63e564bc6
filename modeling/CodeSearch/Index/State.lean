import CodeSearch.Feedback
import CodeSearch.Index.Error
import CodeSearch.Index.IdSet
import CodeSearch.Symbol.Extract
import CodeSearch.Vector.Store

/-! # What the index holds

The index holds one version of each file, the symbols of these versions, the names under which
they are found, and their vectors. Beside them it keeps feedback, and what was touched last.
-/

namespace CodeSearch

/-- The version of a file that is held. -/
structure UnitEntry where
  unit : SourceUnit
  /-- Its symbols in document order. -/
  symbolIds : List SymbolId
  /-- The symbols that have a vector. -/
  embedded : IdSet
  deriving Repr, Inhabited

/-- Everything that the index holds. -/
structure IndexState where
  units : Keyed String UnitEntry := []
  symbols : Keyed SymbolId Symbol := []
  /-- Symbols by names and qualified names in lower case. -/
  byName : Keyed String IdSet := []
  vectors : VectorIndex
  feedback : FeedbackStore := {}
  /-- Paths that were committed last, the latest first. -/
  recentPaths : List String := []
  /-- Names that were changed last, the latest first. -/
  recentSymbols : List String := []
  deriving Repr, Inhabited

/-- What is stored beside the vector of a symbol. -/
def Symbol.metadata (s : Symbol) : Metadata :=
  { language := s.language, path := s.unit.path, kind := s.kind, modifiedAt := s.modifiedAt
    author := s.author }

def Symbol.nameKeys (s : Symbol) : List String :=
  let name := Text.lower s.name
  let qualifiedName := Text.lower s.qualifiedName
  if name = qualifiedName then [name] else [name, qualifiedName]

namespace IndexState

def unit? (s : IndexState) (path : String) : Option UnitEntry :=
  Keyed.get? s.units path

def symbol? (s : IndexState) (id : SymbolId) : Option Symbol :=
  Keyed.get? s.symbols id

def allSymbols (s : IndexState) : List Symbol :=
  Keyed.values s.symbols

/-- The paths that are held, in order. -/
def paths (s : IndexState) : List String :=
  (Keyed.keys s.units).mergeSort fun a b => !(b < a)

/-- The symbols of a file in document order. -/
def symbolsOf (s : IndexState) (path : String) : List Symbol :=
  match s.unit? path with
  | none => []
  | some entry => entry.symbolIds.filterMap s.symbol?

/-- The symbols with a name or qualified name, in any letter case. -/
def lookupName (s : IndexState) (name : String) : IdSet :=
  (Keyed.get? s.byName (Text.lower name)).getD []

/-- Accept a symbol of the version that is held of its file. -/
def check (s : IndexState) (symbol : Symbol) : Except IndexError Unit :=
  let held := (s.unit? symbol.unit.path).map (·.unit.version)
  if held = some symbol.unit.version then .ok ()
  else .error (.inconsistent symbol.id symbol.unit.path symbol.unit.version held)

/-- Whether a symbol is of the version that is held of its file. -/
def isCurrent (s : IndexState) (symbol : Symbol) : Bool :=
  (s.unit? symbol.unit.path).any (·.unit.version == symbol.unit.version)

def addName (id : SymbolId) (names : Keyed String IdSet) (key : String) : Keyed String IdSet :=
  Keyed.put names key (IdSet.insert id ((Keyed.get? names key).getD []))

def addNames (names : Keyed String IdSet) (symbol : Symbol) : Keyed String IdSet :=
  symbol.nameKeys.foldl (addName symbol.id) names

/-- Let an id be found by a name no more. A name by which nothing is found is dropped. -/
def dropName (id : SymbolId) (names : Keyed String IdSet) (key : String) : Keyed String IdSet :=
  match Keyed.get? names key with
  | none => names
  | some ids =>
    let left := IdSet.erase ids id
    if left.isEmpty then Keyed.erase names key else Keyed.put names key left

/-- Let a symbol be found no more. -/
def dropNames (names : Keyed String IdSet) (symbol : Symbol) : Keyed String IdSet :=
  symbol.nameKeys.foldl (dropName symbol.id) names

def addSymbol (s : IndexState) (symbol : Symbol) : IndexState :=
  { s with
    byName := addNames s.byName symbol
    symbols := Keyed.put s.symbols symbol.id symbol }

/-- Hold a symbol no more. -/
def forgetSymbol (s : IndexState) (id : SymbolId) : IndexState :=
  match s.symbol? id with
  | none => s
  | some symbol =>
    { s with symbols := Keyed.erase s.symbols id, byName := dropNames s.byName symbol }

end IndexState

end CodeSearch
