import CodeSearch.Vector.Basic

/-! # The exact store

Every search looks at every record.
-/

namespace CodeSearch

/-- Records that are all compared in every search. -/
structure ExactStore where
  dimension : Nat
  records : Keyed SymbolId Record := []
  deriving Repr, Inhabited

namespace ExactStore

def get? (s : ExactStore) (id : SymbolId) : Option Record :=
  Keyed.get? s.records id

def size (s : ExactStore) : Nat :=
  s.records.length

/-- Put a record in place of the one of the same symbol. -/
def upsert (s : ExactStore) (r : Record) : Except VectorError ExactStore := do
  r.vector.validate s.dimension
  pure { s with records := Keyed.put s.records r.id r }

/-- Drop a record, and tell whether it was there. -/
def delete (s : ExactStore) (id : SymbolId) : Bool × ExactStore :=
  (Keyed.has s.records id, { s with records := Keyed.erase s.records id })

/-- The best `k` records that pass the restriction. -/
def search (s : ExactStore) (query : Vector) (k : Nat) (r : Restriction) :
    Except VectorError (List Candidate) := do
  query.validate s.dimension
  let admitted := (Keyed.values s.records).filter fun record => r.admits record.metadata
  pure (Candidate.best k (admitted.map fun record =>
    ⟨record.id, query.cosine record.vector, record.metadata⟩))

end ExactStore

end CodeSearch
