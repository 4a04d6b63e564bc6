import CodeSearch.Index.State

/-! # Committing to the index

A commit replaces everything that is held of one file. Vectors are written first; when one of them
is refused, those that were touched are put back, and the version before stays in place.
-/

namespace CodeSearch

/-- What a commit puts in place of the version before. -/
structure UnitUpdate where
  unit : SourceUnit
  /-- All symbols of the new version in document order. -/
  symbols : List Symbol
  upserts : List Record
  /-- Records to drop. -/
  deletes : List SymbolId
  changedNames : List String
  deriving Repr, Inhabited

structure CommitCounts where
  /-- Symbols that are now held of the file. -/
  symbols : Nat
  /-- Records that were written. -/
  upserted : Nat
  /-- Records that were dropped. -/
  deleted : Nat
  deriving Repr, DecidableEq, Inhabited

namespace VectorIndex

/-- The records that are held under some ids. -/
def snapshot (i : VectorIndex) (ids : List SymbolId) : List (SymbolId × Option Record) :=
  ids.map fun id => (id, i.get? id)

/-- Put back what a snapshot holds, the first entry last. A record that is refused stays away. -/
def restore (i : VectorIndex) (taken : List (SymbolId × Option Record)) : VectorIndex :=
  taken.reverse.foldl (fun i (id, record) =>
    match record with
    | some r => (i.upsert r).2
    | none => (i.delete id).2) i

/-- Drop records, and tell how many were there. -/
def deleteAll (i : VectorIndex) (ids : List SymbolId) : Nat × VectorIndex :=
  ids.foldl (fun (n, i) id =>
    let (existed, i) := i.delete id
    (if existed then n + 1 else n, i)) (0, i)

/-- Write records until one is refused. -/
def upsertAll (i : VectorIndex) : List Record → Except VectorError Unit × VectorIndex
  | [] => (.ok (), i)
  | r :: rest =>
    match i.upsert r with
    | (.ok _, i) => i.upsertAll rest
    | (.error cause, i) => (.error cause, i)

end VectorIndex

namespace IndexState

/-- How many paths and names are remembered as touched last. -/
def recentCapacity : Nat := 16

/-- Put an entry in front. -/
def pushRecent (recent : List String) (entry : String) : List String :=
  (entry :: recent.filter (· ≠ entry)).take recentCapacity

/-- Replace what is held of a file, when its vectors are written. -/
def replaceUnit (s : IndexState) (u : UnitUpdate) : IndexState :=
  let path := u.unit.path
  let old := s.unit? path
  let s := { s with units := Keyed.erase s.units path }
  let s := (old.elim [] (·.symbolIds)).foldl forgetSymbol s
  let kept := u.deletes.foldl IdSet.erase (old.elim [] (·.embedded))
  let s := u.symbols.foldl addSymbol s
  { s with
    units := Keyed.put s.units path
      { unit := u.unit, symbolIds := u.symbols.map (·.id)
        embedded := IdSet.union kept (u.upserts.map (·.id)) }
    recentPaths := pushRecent s.recentPaths path
    recentSymbols := u.changedNames.foldl pushRecent s.recentSymbols }

/-- Commit a version of a file. -/
def commit (s : IndexState) (u : UnitUpdate) : Except VectorError CommitCounts × IndexState :=
  match u.upserts.forM fun r => r.vector.validate s.vectors.store.dimension with
  | .error cause => (.error cause, s)
  | .ok _ =>
    let taken := s.vectors.snapshot (u.deletes ++ u.upserts.map (·.id))
    let (deleted, vectors) := s.vectors.deleteAll u.deletes
    match vectors.upsertAll u.upserts with
    | (.error cause, vectors) => (.error cause, { s with vectors := vectors.restore taken })
    | (.ok _, vectors) =>
      (.ok ⟨u.symbols.length, u.upserts.length, deleted⟩, replaceUnit { s with vectors } u)

/-- Drop a file with its symbols and vectors, and tell how many symbols there were. -/
def removeUnit (s : IndexState) (path : String) : Option Nat × IndexState :=
  match s.unit? path with
  | none => (none, s)
  | some entry =>
    let (_, vectors) := s.vectors.deleteAll entry.embedded
    let s := { s with units := Keyed.erase s.units path, vectors }
    let s := entry.symbolIds.foldl forgetSymbol s
    (some entry.symbolIds.length, { s with recentPaths := s.recentPaths.filter (· ≠ path) })

/-- Drop the symbols that are not of the version that is held of their file, with their vectors,
    and the feedback on symbols that are gone. Tell how many symbols there were. -/
def pruneStale (s : IndexState) : Nat × IndexState :=
  let stale := (s.allSymbols.filter fun symbol => !s.isCurrent symbol).map (·.id)
  let (_, vectors) := s.vectors.deleteAll stale
  let s := stale.foldl forgetSymbol { s with vectors }
  let isHeld (id : SymbolId) : Bool := Keyed.has s.symbols id
  let units := s.units.map fun (path, entry) =>
    (path, { entry with
      symbolIds := entry.symbolIds.filter isHeld, embedded := entry.embedded.filter isHeld })
  let (_, feedback) := s.feedback.retain isHeld
  (stale.length, { s with units, feedback })

end IndexState

end CodeSearch
