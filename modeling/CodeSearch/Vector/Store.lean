import CodeSearch.Vector.Exact
import CodeSearch.Vector.Graph

/-! # Vector stores

A store is exact, or a graph, or an exact one that sometimes refuses to write.
-/

namespace CodeSearch

inductive VectorStore where
  | exact (s : ExactStore)
  | graph (s : GraphStore)
  /-- An exact store that counts the attempts to write and refuses those in `outages`. -/
  | faulty (s : ExactStore) (writes : Nat) (outages : List Nat)
  deriving Repr, Inhabited

namespace VectorStore

def dimension : VectorStore → Nat
  | exact s => s.dimension
  | graph s => s.dimension
  | faulty s _ _ => s.dimension

def get? : VectorStore → SymbolId → Option Record
  | exact s, id => s.get? id
  | graph s, id => s.get? id
  | faulty s _ _, id => s.get? id

def size : VectorStore → Nat
  | exact s => s.size
  | graph s => s.size
  | faulty s _ _ => s.size

def isEmpty (s : VectorStore) : Bool :=
  s.size == 0

/-- Whether a search applies its restriction before it counts to `k`. -/
def pushesDown : VectorStore → Bool
  | exact _ => true
  | graph _ => false
  | faulty _ _ _ => true

/-- Put a record in place of the one of the same symbol. A refused attempt changes nothing but the
    count of attempts. -/
def upsert (s : VectorStore) (r : Record) : Except VectorError Unit × VectorStore :=
  match s with
  | exact e =>
    match e.upsert r with
    | .ok e => (.ok (), exact e)
    | .error cause => (.error cause, s)
  | graph g =>
    match g.upsert r with
    | .ok g => (.ok (), graph g)
    | .error cause => (.error cause, s)
  | faulty e writes outages =>
    let writes := writes + 1
    if outages.contains writes then
      (.error (.invalidParameter "store unavailable"),
        faulty e writes (outages.filter (· != writes)))
    else
      match e.upsert r with
      | .ok e => (.ok (), faulty e writes outages)
      | .error cause => (.error cause, faulty e writes outages)

/-- Let the next writes of the given numbers, counted from 1, be refused. -/
def failWrites (s : VectorStore) (numbers : List Nat) : VectorStore :=
  match s with
  | faulty e writes _ => faulty e writes (numbers.map (writes + ·))
  | _ => s

/-- Drop a record, and tell whether it was there. -/
def delete (s : VectorStore) (id : SymbolId) : Bool × VectorStore :=
  match s with
  | exact e => let (existed, e) := e.delete id; (existed, exact e)
  | graph g => let (existed, g) := g.delete id; (existed, graph g)
  | faulty e writes outages =>
    let (existed, e) := e.delete id
    (existed, faulty e writes outages)

/-- At most `k` candidates that pass the restriction, best first. -/
def search (s : VectorStore) (query : Vector) (k : Nat) (r : Restriction) :
    Except VectorError (List Candidate) :=
  match s with
  | exact e => e.search query k r
  | graph g => g.search query k r
  | faulty e _ _ => e.search query k r

end VectorStore

/-- What a filtered search uses of a store, for one query. -/
structure Searcher where
  size : Nat
  /-- Whether a search applies its restriction before it counts to `k`. -/
  pushesDown : Bool
  /-- At most so many candidates that pass a restriction, best first. -/
  search : (k : Nat) → Restriction → Except VectorError (List Candidate)

/-- A round in which more candidates were asked for than are wanted. -/
structure FetchRound where
  asked : Nat
  /-- What was found and satisfies the restriction. -/
  kept : List Candidate
  deriving Repr, Inhabited

namespace Searcher

/-- Ask for `fetch` candidates, and for more in each of the rounds that are left, until `k` of
    them satisfy `p` or the store has no more. The last round counts. -/
def fetchRounds (s : Searcher) (factor k : Nat) (p : Metadata → Bool) :
    (rounds fetch : Nat) → (last : FetchRound) → Except VectorError FetchRound
  | 0, _, last => .ok last
  | rounds + 1, fetch, _ => do
    let found ← s.search fetch none
    let round : FetchRound := ⟨fetch, found.filter fun c => p c.metadata⟩
    let exhausted := found.length < fetch || s.size ≤ fetch
    if k ≤ round.kept.length || exhausted then .ok round
    else fetchRounds s factor k p rounds (min (fetch * factor) s.size) round

/-- Ask for more candidates than are wanted, at first for `factor` times as many. -/
def overfetch (s : Searcher) (factor rounds k : Nat) (p : Metadata → Bool) :
    Except VectorError FetchRound :=
  s.fetchRounds factor k p rounds (min (k * factor) s.size) ⟨0, []⟩

/-- At most `k` candidates that pass the restriction, best first. -/
def filteredSearch (s : Searcher) (factor rounds k : Nat) (r : Restriction) :
    Except VectorError (List Candidate) :=
  if k = 0 then .ok []
  else
    match r with
    | none => s.search k none
    | some p =>
      if s.pushesDown then s.search k (some p)
      else do
        let last ← s.overfetch factor rounds k p
        pure (Candidate.best k last.kept)

end Searcher

def VectorStore.searcher (s : VectorStore) (query : Vector) : Searcher :=
  { size := s.size, pushesDown := s.pushesDown, search := s.search query }

/-- A store with the way in which it is asked for more candidates than are wanted. -/
structure VectorIndex where
  store : VectorStore
  /-- How many times as many candidates are asked for, at first and again in each round. -/
  overfetchFactor : Nat := 4
  /-- Rounds after which no more candidates are asked for. -/
  maxRounds : Nat := 3
  deriving Repr, Inhabited

namespace VectorIndex

/-- Set factor and rounds, each of which is at least 1. -/
def withOverfetch (i : VectorIndex) (factor rounds : Nat) : VectorIndex :=
  { i with overfetchFactor := max factor 1, maxRounds := max rounds 1 }

def upsert (i : VectorIndex) (r : Record) : Except VectorError Unit × VectorIndex :=
  let (result, store) := i.store.upsert r
  (result, { i with store })

def delete (i : VectorIndex) (id : SymbolId) : Bool × VectorIndex :=
  let (existed, store) := i.store.delete id
  (existed, { i with store })

def get? (i : VectorIndex) (id : SymbolId) : Option Record :=
  i.store.get? id

def size (i : VectorIndex) : Nat :=
  i.store.size

/-- How similar one record is to a query. -/
def similarityTo (i : VectorIndex) (query : Vector) (id : SymbolId) : Option Score :=
  (i.get? id).map fun r => query.cosine r.vector

/-- At most `k` candidates that pass the restriction, best first. -/
def filteredSearch (i : VectorIndex) (query : Vector) (k : Nat) (r : Restriction) :
    Except VectorError (List Candidate) :=
  (i.store.searcher query).filteredSearch i.overfetchFactor i.maxRounds k r

def summary (i : VectorIndex) : String :=
  let size := i.size
  let dimension := i.store.dimension
  let pushdown := if i.store.pushesDown then "true" else "false"
  s!"VectorIndex \x7b len: {size}, dimension: {dimension}, pushdown: {pushdown} \x7d"

end VectorIndex

end CodeSearch
