import CodeSearch.Proofs.Keyed
import CodeSearch.Vector.Store

/-! # Laws of vector stores

All stores read the same after a write or a deletion, whatever they keep beside the records. A
store may refuse a write even of a valid vector. One that refuses at most one of the coming writes
refuses none after that.
-/

namespace CodeSearch

theorem Vector.validate_ok {v : Vector} {dimension : Nat} :
    v.validate dimension = .ok () ↔ v.length = dimension ∧ ∀ x ∈ v, x.isFinite = true := by
  unfold Vector.validate
  by_cases length : v.length = dimension
  · by_cases finite : v.any fun x => !x.isFinite
    · simp only [length, finite]
      simpa using finite
    · simp only [length, finite]
      simpa using finite
  · simp [length]

namespace VectorStore

/-- At most one of the coming writes is refused. -/
def Steady : VectorStore → Prop
  | exact _ | graph _ => True
  | faulty _ _ outages => outages.length ≤ 1

/-- None of the coming writes is refused. -/
def Calm : VectorStore → Prop
  | exact _ | graph _ => True
  | faulty _ _ outages => outages = []

theorem Calm.steady {s : VectorStore} (h : s.Calm) : s.Steady := by
  cases s with
  | exact | graph => trivial
  | faulty e writes outages =>
      have none : outages = [] := h
      exact none ▸ Nat.zero_le 1

end VectorStore

/-! ## The graph beside the records -/

namespace GraphStore

/-- A store that differs from `s` in nothing but the graph and these records. -/
structure Holding (s : GraphStore) (records : Keyed SymbolId Record) (t : GraphStore) : Prop where
  records : t.records = records
  dimension : t.dimension = s.dimension
  params : t.params = s.params

theorem bury_holding (s : GraphStore) (id : SymbolId) : s.Holding s.records (s.bury id) := by
  unfold bury
  split
  · exact ⟨rfl, rfl, rfl⟩
  · exact ⟨rfl, rfl, rfl⟩

theorem rebuild_holding (s : GraphStore) : s.Holding s.records s.rebuild := by
  unfold rebuild
  exact List.foldlRecOn (motive := fun g : GraphStore => s.Holding s.records g) _ _
    ⟨rfl, rfl, rfl⟩ fun _ same _ _ => ⟨same.records, same.dimension, same.params⟩

section

variable {s t : GraphStore} {records : Keyed SymbolId Record}

theorem Holding.rebuild (h : s.Holding records t) : s.Holding records t.rebuild :=
  have same := t.rebuild_holding
  ⟨same.records.trans h.records, same.dimension.trans h.dimension, same.params.trans h.params⟩

theorem Holding.tidy (h : s.Holding records t) : s.Holding records t.tidy := by
  unfold GraphStore.tidy
  split
  · exact h.rebuild
  · exact h

end

/-- A store with one more record, before the graph is built anew. -/
def linked (s : GraphStore) (r : Record) : GraphStore :=
  { (s.bury r.id).link r.id r.vector with
    records := Keyed.put ((s.bury r.id).link r.id r.vector).records r.id r }

theorem linked_holding (s : GraphStore) (r : Record) :
    s.Holding (Keyed.put s.records r.id r) (s.linked r) :=
  have same := s.bury_holding r.id
  ⟨congrArg (fun records => Keyed.put records r.id r) same.records, same.dimension, same.params⟩

theorem upsert_ok {s : GraphStore} {r : Record} (valid : r.vector.validate s.dimension = .ok ()) :
    s.upsert r = .ok (s.linked r).tidy := by
  simp only [upsert, valid]
  rfl

theorem upsert_error {s : GraphStore} {r : Record} {cause : VectorError}
    (invalid : r.vector.validate s.dimension = .error cause) : s.upsert r = .error cause := by
  simp only [upsert, invalid]
  rfl

/-- A store without a record, before the graph is built anew. -/
def dropped (s : GraphStore) (id : SymbolId) : GraphStore :=
  ({ s with records := Keyed.erase s.records id } : GraphStore).bury id

theorem dropped_holding (s : GraphStore) (id : SymbolId) :
    s.Holding (Keyed.erase s.records id) (s.dropped id) :=
  have same := ({ s with records := Keyed.erase s.records id } : GraphStore).bury_holding id
  ⟨same.records, same.dimension, same.params⟩

theorem delete_eq (s : GraphStore) (id : SymbolId) : s.delete id = (Keyed.has s.records id,
    if Keyed.has s.records id then (s.dropped id).tidy else s.dropped id) := rfl

theorem delete_holding (s : GraphStore) (id : SymbolId) :
    s.Holding (Keyed.erase s.records id) (s.delete id).2 := by
  rw [delete_eq]
  cases Keyed.has s.records id with
  | true => exact (s.dropped_holding id).tidy
  | false => exact s.dropped_holding id

end GraphStore

theorem ExactStore.upsert_ok {s : ExactStore} {r : Record}
    (valid : r.vector.validate s.dimension = .ok ()) :
    s.upsert r = .ok { s with records := Keyed.put s.records r.id r } := by
  simp only [upsert, valid]
  rfl

theorem ExactStore.upsert_error {s : ExactStore} {r : Record} {cause : VectorError}
    (invalid : r.vector.validate s.dimension = .error cause) : s.upsert r = .error cause := by
  simp only [upsert, invalid]
  rfl

/-! ## Reading after writing -/

namespace VectorStore

theorem get?_delete (s : VectorStore) (id other : SymbolId) :
    (s.delete id).2.get? other = if other = id then none else s.get? other := by
  cases s with
  | exact e => exact Keyed.get?_erase e.records id other
  | faulty e writes outages => exact Keyed.get?_erase e.records id other
  | graph g =>
      have records : (g.delete id).2.records = Keyed.erase g.records id := (g.delete_holding id).records
      calc
        ((graph g).delete id).2.get? other = Keyed.get? (g.delete id).2.records other := rfl
        _ = if other = id then none else Keyed.get? g.records other := by
            rw [records, Keyed.get?_erase]

theorem dimension_delete (s : VectorStore) (id : SymbolId) :
    (s.delete id).2.dimension = s.dimension := by
  cases s with
  | exact | faulty => rfl
  | graph g => exact (g.delete_holding id).dimension

theorem steady_delete {s : VectorStore} (h : s.Steady) (id : SymbolId) : (s.delete id).2.Steady := by
  cases s with
  | exact | graph => trivial
  | faulty => exact h

/-- What a write does that is not refused. -/
structure Written (s : VectorStore) (r : Record) (after : VectorStore) : Prop where
  get : ∀ id, after.get? id = if id = r.id then some r else s.get? id
  dimension : after.dimension = s.dimension
  steady : s.Steady → after.Steady
  calm : s.Calm → after.Calm

/-- What a write does that is refused. -/
structure Refused (s after : VectorStore) : Prop where
  get : ∀ id, after.get? id = s.get? id
  dimension : after.dimension = s.dimension
  calm : s.Steady → after.Calm
  restless : ¬s.Calm

theorem upsert_cases (s : VectorStore) {r : Record}
    (valid : r.vector.validate s.dimension = .ok ()) :
    (∃ after, s.upsert r = (.ok (), after) ∧ Written s r after) ∨
      ∃ cause after, s.upsert r = (.error cause, after) ∧ Refused s after := by
  cases s with
  | exact e =>
      have ok : e.upsert r = .ok { e with records := Keyed.put e.records r.id r } :=
        ExactStore.upsert_ok valid
      refine .inl ⟨.exact { e with records := Keyed.put e.records r.id r }, ?_, ?_⟩
      · simp only [upsert, ok]
      · exact ⟨fun id => Keyed.get?_put e.records r.id id r, rfl, fun _ => trivial, fun _ => trivial⟩
  | graph g =>
      have ok : g.upsert r = .ok (g.linked r).tidy := GraphStore.upsert_ok valid
      have holding := (g.linked_holding r).tidy
      refine .inl ⟨.graph (g.linked r).tidy, ?_, fun id => ?_, holding.dimension,
        fun _ => trivial, fun _ => trivial⟩
      · simp only [upsert, ok]
      · calc
          (graph (g.linked r).tidy).get? id = Keyed.get? (g.linked r).tidy.records id := rfl
          _ = if id = r.id then some r else Keyed.get? g.records id := by
              rw [holding.records, Keyed.get?_put]
  | faulty e writes outages =>
      have ok : e.upsert r = .ok { e with records := Keyed.put e.records r.id r } :=
        ExactStore.upsert_ok valid
      by_cases refused : outages.contains (writes + 1)
      · refine .inr ⟨.invalidParameter "store unavailable",
          .faulty e (writes + 1) (outages.filter (· != writes + 1)), ?_, fun _ => rfl, rfl, ?_, ?_⟩
        · simp only [upsert, refused, if_true]
        · intro steady
          have known : writes + 1 ∈ outages := List.contains_iff_mem.mp refused
          match outages, steady, known with
          | [only], _, known =>
              have same : writes + 1 = only := List.mem_singleton.mp known
              simp [Calm, same]
        · intro calm
          have none : outages = [] := calm
          rw [none] at refused
          cases refused
      · refine .inl ⟨.faulty { e with records := Keyed.put e.records r.id r } (writes + 1) outages,
          ?_, ?_⟩
        · simp only [upsert, refused, ok]
          rfl
        · exact ⟨fun id => Keyed.get?_put e.records r.id id r, rfl, fun steady => steady,
            fun calm => calm⟩

theorem upsert_invalid (s : VectorStore) {r : Record} {cause : VectorError}
    (invalid : r.vector.validate s.dimension = .error cause) :
    ∃ cause after, s.upsert r = (.error cause, after) ∧ ∀ id, after.get? id = s.get? id := by
  cases s with
  | exact e =>
      have refused : e.upsert r = .error cause := ExactStore.upsert_error invalid
      exact ⟨cause, .exact e, by simp only [upsert, refused], fun _ => rfl⟩
  | graph g =>
      have refused : g.upsert r = .error cause := GraphStore.upsert_error invalid
      exact ⟨cause, .graph g, by simp only [upsert, refused], fun _ => rfl⟩
  | faulty e writes outages =>
      have refused : e.upsert r = .error cause := ExactStore.upsert_error invalid
      simp only [upsert, refused]
      split
      · exact ⟨_, _, rfl, fun _ => rfl⟩
      · exact ⟨_, _, rfl, fun _ => rfl⟩

/-- A record that is accepted is read under its id, and one that is refused is not. -/
theorem get?_upsert (s : VectorStore) (r : Record) (id : SymbolId) :
    (s.upsert r).2.get? id =
      if (s.upsert r).1.isOk = true ∧ id = r.id then some r else s.get? id := by
  have kept {cause : VectorError} {after : VectorStore} (error : s.upsert r = (.error cause, after))
      (get : ∀ id, after.get? id = s.get? id) : (s.upsert r).2.get? id =
        if (s.upsert r).1.isOk = true ∧ id = r.id then some r else s.get? id := by
    rw [error, get]
    exact (if_neg fun h => Bool.false_ne_true h.1).symm
  cases valid : r.vector.validate s.dimension with
  | error cause =>
      obtain ⟨cause, after, error, get⟩ := s.upsert_invalid valid
      exact kept error get
  | ok _ =>
      rcases s.upsert_cases valid with ⟨after, ok, written⟩ | ⟨cause, after, error, refused⟩
      · rw [ok, written.get]
        exact if_congr (and_iff_right rfl).symm rfl rfl
      · exact kept error refused.get

/-- Every record is held under the id of its symbol. -/
def OwnIds (s : VectorStore) : Prop :=
  ∀ id r, s.get? id = some r → r.id = id

theorem OwnIds.upsert {s : VectorStore} (h : s.OwnIds) (r : Record) : (s.upsert r).2.OwnIds := by
  intro id other held
  rw [get?_upsert] at held
  split at held
  · rename_i written
    cases held
    exact written.2.symm
  · exact h id other held

theorem OwnIds.delete {s : VectorStore} (h : s.OwnIds) (id : SymbolId) : (s.delete id).2.OwnIds := by
  intro other r held
  rw [get?_delete] at held
  split at held
  · cases held
  · exact h other r held

theorem get?_failWrites (s : VectorStore) (numbers : List Nat) (id : SymbolId) :
    (s.failWrites numbers).get? id = s.get? id := by
  cases s with
  | exact | graph | faulty => rfl

theorem dimension_failWrites (s : VectorStore) (numbers : List Nat) :
    (s.failWrites numbers).dimension = s.dimension := by
  cases s with
  | exact | graph | faulty => rfl

theorem steady_failWrites (s : VectorStore) (number : Nat) : (s.failWrites [number]).Steady := by
  cases s with
  | exact | graph => trivial
  | faulty => exact Nat.le_refl 1

end VectorStore

end CodeSearch
