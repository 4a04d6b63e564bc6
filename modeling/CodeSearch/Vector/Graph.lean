import CodeSearch.Vector.Basic

/-! # The graph store

Vectors stand in a neighbour graph under internal numbers. A vector cannot be taken out of the
graph: a deleted or replaced one stays behind as a tombstone, which searches pass over, until the
graph is built anew from the live records. A graph of one layer answers a search with exactly the
nearest of its vectors.
-/

namespace CodeSearch

/-- How a graph is built and searched. -/
structure GraphParams where
  /-- Links of each node. -/
  m : Nat := 16
  /-- Neighbours looked at while building. -/
  efConstruction : Nat := 200
  /-- Neighbours looked at while searching. -/
  efSearch : Nat := 50
  /-- Number of vectors the graph is made for. -/
  maxElements : Nat := 100000
  maxLayer : Nat := 16
  /-- The graph is built anew when there are more tombstones than this fraction of the live
      records. -/
  rebuildRatio : Score := 0.5
  deriving Repr, BEq, Inhabited

namespace GraphParams

def validate (p : GraphParams) : Except VectorError Unit :=
  if p.m = 0 then .error (.invalidParameter "m must be > 0")
  else if p.efConstruction < p.m then .error (.invalidParameter "ef_construction must be >= m")
  else if p.efSearch = 0 then .error (.invalidParameter "ef_search must be > 0")
  else if p.maxElements = 0 then .error (.invalidParameter "max_elements must be > 0")
  else if p.maxLayer = 0 then .error (.invalidParameter "max_layer must be > 0")
  else if !(p.rebuildRatio > 0) then .error (.invalidParameter "rebuild_ratio must be > 0")
  else .ok ()

/-- The parameters themselves when they are valid, else the default ones. -/
def orDefault (p : GraphParams) : GraphParams :=
  match p.validate with
  | .ok _ => p
  | .error _ => {}

end GraphParams

/-- A vector in the graph under its internal number. -/
structure GraphNode where
  number : Nat
  vector : Vector
  deriving Repr, Inhabited

/-- Records, with their vectors in a neighbour graph. -/
structure GraphStore where
  dimension : Nat
  params : GraphParams
  /-- All vectors that were put into the graph. -/
  nodes : List GraphNode := []
  /-- Symbols of the live numbers. -/
  idOf : Keyed Nat SymbolId := []
  numberOf : Keyed SymbolId Nat := []
  records : Keyed SymbolId Record := []
  /-- Numbers that are live no more. -/
  deleted : List Nat := []
  nextNumber : Nat := 0
  deriving Repr, Inhabited

namespace GraphStore

/-- An empty store; invalid parameters give way to the default ones. -/
def ofParams (dimension : Nat) (params : GraphParams) : GraphStore :=
  { dimension, params := params.orDefault }

def get? (s : GraphStore) (id : SymbolId) : Option Record :=
  Keyed.get? s.records id

def size (s : GraphStore) : Nat :=
  s.records.length

def tombstones (s : GraphStore) : Nat :=
  s.deleted.length

/-- Put a vector into the graph under the next number. -/
def link (s : GraphStore) (id : SymbolId) (vector : Vector) : GraphStore :=
  { s with
    nodes := s.nodes ++ [⟨s.nextNumber, vector⟩]
    idOf := Keyed.put s.idOf s.nextNumber id
    numberOf := Keyed.put s.numberOf id s.nextNumber
    nextNumber := s.nextNumber + 1 }

/-- Leave the vector of a symbol behind as a tombstone. -/
def bury (s : GraphStore) (id : SymbolId) : GraphStore :=
  match Keyed.get? s.numberOf id with
  | none => s
  | some number =>
    { s with
      numberOf := Keyed.erase s.numberOf id
      idOf := Keyed.erase s.idOf number
      deleted := s.deleted ++ [number] }

/-- Whether there are too many tombstones, or no room for more vectors. -/
def needsRebuild (s : GraphStore) : Bool :=
  let live := Float32.ofNat (max s.size 1)
  Float32.ofNat s.tombstones / live > s.params.rebuildRatio ||
    s.params.maxElements ≤ s.nextNumber

/-- Build the graph anew from the live records, in the order of their ids. -/
def rebuild (s : GraphStore) : GraphStore :=
  let live := (Keyed.values s.records).mergeSort fun a b => !(b.id < a.id)
  let bare :=
    { s with nodes := [], idOf := [], numberOf := [], deleted := [], nextNumber := 0 }
  live.foldl (fun s r => s.link r.id r.vector) bare

/-- Build the graph anew if there is need for it. -/
def tidy (s : GraphStore) : GraphStore :=
  if s.needsRebuild then s.rebuild else s

/-- Put a record in place of the one of the same symbol. -/
def upsert (s : GraphStore) (r : Record) : Except VectorError GraphStore := do
  r.vector.validate s.dimension
  let s := (s.bury r.id).link r.id r.vector
  pure { s with records := Keyed.put s.records r.id r }.tidy

/-- Drop a record, and tell whether it was there. -/
def delete (s : GraphStore) (id : SymbolId) : Bool × GraphStore :=
  let existed := Keyed.has s.records id
  let s := { s with records := Keyed.erase s.records id }.bury id
  (existed, if existed then s.tidy else s)

/-- The `want` vectors of the graph that are nearest to the query, with their distances. -/
def nearest (s : GraphStore) (query : Vector) (want : Nat) : List (Nat × Score) :=
  let measured := s.nodes.map fun n => (n.number, query.cosineDistance n.vector)
  (measured.mergeSort fun a b => a.2.rank ≤ b.2.rank).take want

/-- The candidate of a vector that is live and passes the restriction. -/
def candidate? (s : GraphStore) (r : Restriction) (number : Nat) (distance : Score) :
    Option Candidate := do
  if s.deleted.contains number then none
  let id ← Keyed.get? s.idOf number
  let record ← s.get? id
  if r.admits record.metadata then some ⟨id, 1 - distance, record.metadata⟩ else none

/-- The best `k` among the nearest vectors. Enough are asked for to make up for the tombstones,
    but not for records that fail the restriction. -/
def search (s : GraphStore) (query : Vector) (k : Nat) (r : Restriction) :
    Except VectorError (List Candidate) := do
  query.validate s.dimension
  if s.records.isEmpty || k = 0 then pure []
  else
    let want := min (k + s.tombstones) s.nextNumber
    pure (Candidate.best k ((s.nearest query want).filterMap fun (number, distance) =>
      s.candidate? r number distance))

end GraphStore

end CodeSearch
