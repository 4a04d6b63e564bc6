import CodeSearch.Config.Basic
import CodeSearch.Index.Commit
import CodeSearch.Index.Embedder
import CodeSearch.Index.FileTable
import CodeSearch.Index.Locks
import CodeSearch.Index.Lookup
import CodeSearch.Similarity
import CodeSearch.Syntax.ParseCache

/-! # The index

An index is put together from a configuration: an embedder and a vector store of the dimension
that is set, a cache of parsed sources, and a clock.
-/

namespace CodeSearch

open Syntax (ParseCache CacheStats ParseOptions)
open Time (Instant)

/-- An index of source files. -/
structure CodeIndex where
  config : IndexConfig
  /-- Languages whose files are indexed. -/
  registered : List Language
  embedder : Embedder
  cache : ParseCache
  files : FileTable := {}
  state : IndexState
  locks : PathLocks := {}
  /-- The time on the clock. -/
  now : Instant
  textsSent : Nat := 0
  /-- Number of passes that were begun. -/
  passes : Nat := 0
  deriving Inhabited

/-- Parts that take the place of those that the configuration asks for. -/
structure IndexParts where
  embedder : Option Embedder := none
  store : Option VectorStore := none
  cacheCapacity : Option Nat := none
  registered : List Language := Language.all

structure IndexStats where
  /-- Files of which the last version is served. -/
  filesIndexed : Nat
  filesFailed : Nat
  filesInProgress : Nat
  symbols : Nat
  embeddings : Nat
  cache : CacheStats
  feedback : Nat
  model : String
  deriving Repr

namespace CodeIndex

/-- The store that a configuration asks for. -/
def storeOf (c : VectorConfig) : VectorStore :=
  match c.backend with
  | .exact => .exact { dimension := c.dimension }
  | .graph => .graph (GraphStore.ofParams c.dimension c.graph)

def build (c : IndexConfig) (parts : IndexParts) (now : Instant) : Except IndexError CodeIndex := do
  c.validate
  let dimension := c.vector.dimension
  let embedder := parts.embedder.getD (Embedder.hashing dimension)
  if embedder.dimension ≠ dimension then
    throw (.config (s!"embedding provider {embedder.model} produces {embedder.dimension} " ++
      s!"dimensions, vector.dimension is {dimension}"))
  let store := parts.store.getD (storeOf c.vector)
  if store.dimension ≠ dimension then
    throw (.config (s!"vector store has {store.dimension} dimensions, " ++
      s!"vector.dimension is {dimension}"))
  let vectors := VectorIndex.withOverfetch { store } c.vector.overfetchFactor
    c.vector.maxOverfetchRounds
  pure
    { config := c, registered := parts.registered, embedder
      cache := ParseCache.ofCapacity (parts.cacheCapacity.getD c.cache.capacity)
      state := { vectors }
      now }

def parseOptions (w : CodeIndex) : ParseOptions :=
  { registered := w.registered, rejectErrors := w.config.pipeline.rejectErrors }

def detector (w : CodeIndex) : Detector :=
  Detector.ofThreshold w.config.patterns.minConfidence

/-- The index at a later time, or an earlier one. -/
def advance (w : CodeIndex) (millis : Int) : Except BeyondCalendar CodeIndex :=
  match w.now.addMillis? millis with
  | some now => .ok { w with now }
  | none => .error {}

def stats (w : CodeIndex) : IndexStats :=
  { filesIndexed := w.files.count (· == .indexed)
    filesFailed := w.files.count (·.isFailed)
    filesInProgress := w.files.count (·.inProgress)
    symbols := w.state.symbols.length
    embeddings := w.state.vectors.size
    cache := w.cache.stats
    feedback := w.state.feedback.size
    model := w.embedder.model }

def symbol (w : CodeIndex) (id : SymbolId) : Except IndexError Symbol :=
  match w.state.symbol? id with
  | some symbol => .ok symbol
  | none => .error (.unknownSymbol id)

/-- Order of paths, and of places in a file. -/
def placeLe (a b : Symbol) : Bool :=
  if a.unit.path = b.unit.path then a.span.startByte ≤ b.span.startByte
  else a.unit.path < b.unit.path

/-- The symbols with a name or qualified name in any letter case, by path and place. -/
def findSymbols (w : CodeIndex) (name : String) : List Symbol :=
  ((w.state.lookupName name).filterMap w.state.symbol?).mergeSort placeLe

def resolveRelations (w : CodeIndex) (id : SymbolId) : Except IndexError (List ResolvedRelation) :=
  (w.symbol id).map w.state.resolveRelations

def patterns (w : CodeIndex) (id : SymbolId) : Except IndexError (List PatternMatch) :=
  (w.symbol id).map (w.state.patternsFor w.detector)

/-- The symbols whose shape is similar to that of a symbol. -/
def similar (w : CodeIndex) (id : SymbolId) (threshold : Score) :
    Except IndexError (List (SymbolId × Score)) := do
  if !(0 ≤ threshold && threshold ≤ 1) then
    let number := (Decimal.Parts.ofFloat32 threshold).plain
    throw (.invalidArgument s!"similarity threshold must be within [0, 1], got {number}")
  let target ← w.symbol id
  pure (Similarity.find target w.state.allSymbols threshold)

/-- Count what a user did with a result. -/
def recordFeedback (w : CodeIndex) (id : SymbolId) (signal : Signal) :
    Except IndexError CodeIndex := do
  discard (w.symbol id)
  pure { w with state := { w.state with feedback := w.state.feedback.record id signal } }

/-- Numbers of what was dropped. -/
structure PruneCounts where
  symbols : Nat
  files : Nat
  locks : Nat
  deriving Repr, DecidableEq

/-- Drop what is of no use any more: symbols of other versions, forgotten paths, and locks. -/
def pruneStale (w : CodeIndex) : PruneCounts × CodeIndex :=
  let (symbols, state) := w.state.pruneStale
  let (files, table) := w.files.prune
  let (dropped, locks) := w.locks.prune
  (⟨symbols, files, dropped⟩, { w with state, files := table, locks })

end CodeIndex

end CodeSearch
