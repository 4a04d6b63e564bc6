import CodeSearch.Syntax.Source

/-! # The cache of parsed sources

Parsed sources are kept under path, content hash and language. When the cache is full, the entry
that was used longest ago makes room. Every parse counts as a hit or a miss.
-/

namespace CodeSearch.Syntax

/-- What identifies a parsed source. -/
structure ParseKey where
  path : String
  contentHash : String
  language : Language
  deriving Repr, DecidableEq, Inhabited

/-- Hits, misses and entries of a cache. -/
structure CacheStats where
  hits : Nat
  misses : Nat
  entries : Nat
  deriving Repr, DecidableEq

structure ParseCache where
  /-- Greatest number of entries. -/
  capacity : Nat
  /-- The entries, the one used last first. -/
  entries : Keyed ParseKey Parsed := []
  hits : Nat := 0
  misses : Nat := 0
  capacity_pos : 0 < capacity := by omega

namespace ParseCache

/-- An empty cache of at least one entry. -/
def ofCapacity (capacity : Nat) : ParseCache :=
  { capacity := max capacity 1, capacity_pos := by omega }

instance : Inhabited ParseCache := ⟨ofCapacity 1⟩

/-- The entry under a key, which thereby becomes the one used last. -/
def get? (c : ParseCache) (key : ParseKey) : Option Parsed × ParseCache :=
  match Keyed.get? c.entries key with
  | none => (none, c)
  | some parsed => (some parsed, { c with entries := (key, parsed) :: Keyed.erase c.entries key })

/-- Put an entry, which becomes the one used last. -/
def insert (c : ParseCache) (key : ParseKey) (parsed : Parsed) : ParseCache :=
  { c with entries := ((key, parsed) :: Keyed.erase c.entries key).take c.capacity }

/-- Drop an entry. -/
def erase (c : ParseCache) (key : ParseKey) : Bool × ParseCache :=
  (Keyed.has c.entries key, { c with entries := Keyed.erase c.entries key })

/-- Drop the entries of a path, and tell how many there were. -/
def erasePath (c : ParseCache) (path : String) : Nat × ParseCache :=
  let kept := c.entries.filter (·.1.path != path)
  (c.entries.length - kept.length, { c with entries := kept })

def stats (c : ParseCache) : CacheStats :=
  ⟨c.hits, c.misses, c.entries.length⟩

/-- The entry under a key, or else what `make` gives, which is then kept. -/
def getOrInsert {ε : Type} (c : ParseCache) (key : ParseKey) (make : Except ε Parsed) :
    Except ε Parsed × ParseCache :=
  match c.get? key with
  | (some parsed, c) => (.ok parsed, { c with hits := c.hits + 1 })
  | (none, c) =>
    let c := { c with misses := c.misses + 1 }
    match make with
    | .error e => (.error e, c)
    | .ok parsed => (.ok parsed, c.insert key parsed)

end ParseCache

structure ParseOptions where
  /-- Languages whose sources can be read. -/
  registered : List Language := Language.all
  /-- Whether a source with syntax errors is an error. -/
  rejectErrors : Bool := true
  deriving Repr, DecidableEq

def parse? (registered : List Language) (source : Source) (key : ParseKey) :
    Except ParseError Parsed :=
  if key.language ∈ registered then .ok (Parsed.ofSource source key.language key.contentHash)
  else .error (.unsupportedLanguage key.language.name)

def ParseOptions.accept (o : ParseOptions) (parsed : Parsed) : Except ParseError Parsed :=
  match o.rejectErrors, parsed.rejection? with
  | true, some e => .error e
  | _, _ => .ok parsed

/-- Read a source through a cache. Sources with syntax errors are kept too. -/
def ParseCache.parse (c : ParseCache) (o : ParseOptions) (source : Source) (key : ParseKey) :
    Except ParseError Parsed × ParseCache :=
  let (result, c) := c.getOrInsert key (parse? o.registered source key)
  (result.bind o.accept, c)

end CodeSearch.Syntax
