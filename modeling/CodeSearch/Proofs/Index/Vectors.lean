import CodeSearch.Proofs.Index.Replacement
import CodeSearch.Proofs.Vector.Store

/-! # Vectors under commits

A commit drops and writes the vectors that it is told to. When a write is refused, all records are
put back, so that the vectors read as before.
-/

namespace CodeSearch

namespace VectorIndex

/-- Every record is held under the id of its symbol and would be accepted again. -/
def Sound (i : VectorIndex) : Prop :=
  ∀ id r, i.get? id = some r → r.id = id ∧ r.vector.validate i.store.dimension = .ok ()

theorem Sound.ownIds {i : VectorIndex} (sound : i.Sound) : i.store.OwnIds :=
  fun id r held => (sound id r held).1

/-- What writing a record and dropping one keep of a store, and an outage too. -/
structure Lasting (P : VectorStore → Prop) : Prop where
  upsert : ∀ s r, P s → P (s.upsert r).2
  delete : ∀ s id, P s → P (s.delete id).2
  failWrites : ∀ s numbers, P s → P (s.failWrites numbers)

theorem ownIds_lasting : Lasting VectorStore.OwnIds :=
  ⟨fun _ r own => own.upsert r, fun _ id own => own.delete id,
    fun s numbers own id r held => own id r ((s.get?_failWrites numbers id).symm.trans held)⟩

/-! ## Dropping records -/

/-- Drop records without counting them. -/
def dropAll (i : VectorIndex) (ids : List SymbolId) : VectorIndex :=
  ids.foldl (fun i id => (i.delete id).2) i

theorem deleteAll_eq (i : VectorIndex) (ids : List SymbolId) :
    (i.deleteAll ids).2 = i.dropAll ids := by
  have each (n : Nat) : (ids.foldl (fun (counted : Nat × VectorIndex) id =>
      (if (counted.2.delete id).1 then counted.1 + 1 else counted.1, (counted.2.delete id).2))
      (n, i)).2 = i.dropAll ids := by
    induction ids generalizing i n with
    | nil => rfl
    | cons first rest ih => exact ih (i.delete first).2 _
  exact each 0

theorem get?_dropAll (i : VectorIndex) (ids : List SymbolId) (id : SymbolId) :
    (i.dropAll ids).get? id = if id ∈ ids then none else i.get? id := by
  induction ids generalizing i with
  | nil => rfl
  | cons first rest ih =>
      have one : (i.delete first).2.get? id = if id = first then none else i.get? id :=
        i.store.get?_delete first id
      rw [dropAll, List.foldl_cons, ← dropAll, ih, one]
      by_cases same : id = first
      · simp [same]
      · simp [same]

theorem dimension_dropAll (i : VectorIndex) (ids : List SymbolId) :
    (i.dropAll ids).store.dimension = i.store.dimension :=
  List.foldlRecOn (motive := fun j : VectorIndex => j.store.dimension = i.store.dimension) ids _ rfl
    fun j same id _ => (j.store.dimension_delete id).trans same

theorem steady_dropAll {i : VectorIndex} (h : i.store.Steady) (ids : List SymbolId) :
    (i.dropAll ids).store.Steady :=
  List.foldlRecOn (motive := fun j : VectorIndex => j.store.Steady) ids _ h
    fun _ steady id _ => VectorStore.steady_delete steady id

theorem Lasting.dropAll {P : VectorStore → Prop} (lasting : Lasting P) {i : VectorIndex}
    (h : P i.store) (ids : List SymbolId) : P (i.dropAll ids).store :=
  List.foldlRecOn (motive := fun j : VectorIndex => P j.store) ids _ h
    fun j kept id _ => lasting.delete j.store id kept

/-! ## Writing records -/

/-- Under every id stands one of the written records, or what stood there. -/
def Holds (i : VectorIndex) (records : List Record) (after : VectorIndex) : Prop :=
  ∀ id, (∃ r ∈ records, r.id = id ∧ after.get? id = some r) ∨
    id ∉ records.map (·.id) ∧ after.get? id = i.get? id

/-- What is left of writes of which one was refused: the ids that were not to be written read as
    before. -/
structure Broken (i : VectorIndex) (records : List Record) (after : VectorIndex) : Prop where
  get : ∀ id, id ∉ records.map (·.id) → after.get? id = i.get? id
  dimension : after.store.dimension = i.store.dimension
  calm : i.store.Steady → after.store.Calm

theorem upsertAll_cases (i : VectorIndex) {records : List Record}
    (valid : ∀ r ∈ records, r.vector.validate i.store.dimension = .ok ()) :
    (∃ after, i.upsertAll records = (.ok (), after) ∧ i.Holds records after ∧
        after.store.dimension = i.store.dimension ∧ (i.store.Steady → after.store.Steady)) ∨
      ∃ cause after, i.upsertAll records = (.error cause, after) ∧ i.Broken records after := by
  induction records generalizing i with
  | nil => exact .inl ⟨i, rfl, fun id => .inr ⟨List.not_mem_nil, rfl⟩, rfl, id⟩
  | cons first rest ih =>
      obtain ⟨validFirst, validRest⟩ := List.forall_mem_cons.mp valid
      rcases i.store.upsert_cases validFirst with ⟨store, ok, written⟩ | ⟨cause, store, error, refused⟩
      · have one : i.upsert first = (.ok (), { i with store }) := by simp only [upsert, ok]
        have get (id : SymbolId) : ({ i with store } : VectorIndex).get? id =
            if id = first.id then some first else i.get? id := written.get id
        have validAfter : ∀ r ∈ rest, r.vector.validate store.dimension = .ok () :=
          written.dimension ▸ validRest
        have step : i.upsertAll (first :: rest) = ({ i with store } : VectorIndex).upsertAll rest := by
          simp only [upsertAll, one]
        rw [step]
        rcases ih { i with store } validAfter with
          ⟨after, all, holds, dimension, steady⟩ | ⟨cause, after, error, broken⟩
        · refine .inl ⟨after, all, fun id => ?_, dimension.trans written.dimension,
            fun h => steady (written.steady h)⟩
          rcases holds id with ⟨r, inside, same, held⟩ | ⟨absent, held⟩
          · exact .inl ⟨r, List.mem_cons_of_mem _ inside, same, held⟩
          · rw [get] at held
            split at held
            · rename_i same
              exact .inl ⟨first, List.mem_cons_self, same.symm, held⟩
            · rename_i different
              refine .inr ⟨?_, held⟩
              rw [List.map_cons, List.mem_cons, not_or]
              exact ⟨different, absent⟩
        · refine .inr ⟨cause, after, error, ?_, broken.dimension.trans written.dimension,
            fun h => broken.calm (written.steady h)⟩
          intro id absent
          rw [List.map_cons, List.mem_cons, not_or] at absent
          rw [broken.get id absent.2, get, if_neg absent.1]
      · refine .inr ⟨cause, { i with store }, ?_, fun id _ => refused.get id, refused.dimension,
          refused.calm⟩
        have one : i.upsert first = (.error cause, { i with store }) := by simp only [upsert, error]
        simp only [upsertAll, one]

theorem Lasting.upsertAll {P : VectorStore → Prop} (lasting : Lasting P) {i : VectorIndex}
    (h : P i.store) (records : List Record) : P (i.upsertAll records).2.store := by
  induction records generalizing i with
  | nil => exact h
  | cons first rest ih =>
      have one : P (i.upsert first).2.store := lasting.upsert i.store first h
      simp only [VectorIndex.upsertAll]
      split
      · rename_i after ok
        rw [ok] at one
        exact ih one
      · rename_i cause after error
        rw [error] at one
        exact one

/-! ## Putting records back -/

/-- Put back one entry of a snapshot. -/
def putBack (i : VectorIndex) (entry : SymbolId × Option Record) : VectorIndex :=
  match entry.2 with
  | some r => (i.upsert r).2
  | none => (i.delete entry.1).2

theorem restore_cons (i : VectorIndex) (entry : SymbolId × Option Record)
    (rest : List (SymbolId × Option Record)) :
    i.restore (entry :: rest) = (i.restore rest).putBack entry := by
  unfold restore
  rw [List.reverse_cons, List.foldl_append]
  rfl

theorem calm_delete {i : VectorIndex} (h : i.store.Calm) (id : SymbolId) :
    (i.delete id).2.store.Calm := by
  unfold delete
  cases hs : i.store with
  | exact | graph => trivial
  | faulty =>
      rw [hs] at h
      exact h

/-- Whether every record of a snapshot is accepted when it is put back. -/
def restores (i : VectorIndex) : List (SymbolId × Option Record) → Bool
  | [] => true
  | (_, none) :: rest => i.restores rest
  | (_, some r) :: rest => i.restores rest && ((i.restore rest).upsert r).1.isOk

/-- When all records of a snapshot are accepted, its ids read as they did. -/
theorem get?_restore {before : VectorIndex} (own : before.store.OwnIds) {ids : List SymbolId}
    {i : VectorIndex} (restores : i.restores (before.snapshot ids) = true) (id : SymbolId) :
    (i.restore (before.snapshot ids)).get? id = if id ∈ ids then before.get? id else i.get? id := by
  -- records are put back from the last to the first, so the first one is written over the others
  induction ids with
  | nil => rfl
  | cons first rest ih =>
      have step : i.restore (before.snapshot (first :: rest)) =
          (i.restore (before.snapshot rest)).putBack (first, before.get? first) := restore_cons _ _ _
      have entries : before.snapshot (first :: rest) =
          (first, before.get? first) :: before.snapshot rest := rfl
      rw [entries] at restores
      have done (last : (i.restore (before.snapshot (first :: rest))).get? id =
            if id = first then before.get? first else (i.restore (before.snapshot rest)).get? id)
          (tail : i.restores (before.snapshot rest) = true) :
          (i.restore (before.snapshot (first :: rest))).get? id =
            if id ∈ first :: rest then before.get? id else i.get? id := by
        rw [last, ih tail]
        by_cases same : id = first
        · simp [same]
        · simp [same]
      cases held : before.get? first with
      | none =>
          rw [held] at restores step
          refine done ?_ restores
          rw [step, held]
          exact VectorStore.get?_delete _ first id
      | some r =>
          rw [held] at restores step
          obtain ⟨tail, accepted⟩ := (Bool.and_eq_true _ _).mp restores
          refine done ?_ tail
          rw [step, held, ← own first r held]
          refine (VectorStore.get?_upsert _ r id).trans (if_congr (and_iff_right ?_) rfl rfl)
          exact accepted

theorem Lasting.restore {P : VectorStore → Prop} (lasting : Lasting P) {i : VectorIndex}
    (h : P i.store) (taken : List (SymbolId × Option Record)) : P (i.restore taken).store := by
  induction taken with
  | nil => exact h
  | cons entry rest ih =>
      rw [restore_cons]
      obtain ⟨id, record⟩ := entry
      cases record with
      | none => exact lasting.delete _ id ih
      | some r => exact lasting.upsert _ r ih

/-- A store that refuses nothing accepts what is put back. -/
theorem restores_snapshot {before : VectorIndex} (sound : before.Sound) (ids : List SymbolId)
    {i : VectorIndex} (calm : i.store.Calm)
    (dimension : i.store.dimension = before.store.dimension) :
    i.restores (before.snapshot ids) = true ∧ (i.restore (before.snapshot ids)).store.Calm ∧
      (i.restore (before.snapshot ids)).store.dimension = before.store.dimension := by
  induction ids with
  | nil => exact ⟨rfl, calm, dimension⟩
  | cons first rest ih =>
      obtain ⟨restores, calmRest, dimensionRest⟩ := ih
      have step : i.restore (before.snapshot (first :: rest)) =
          (i.restore (before.snapshot rest)).putBack (first, before.get? first) := restore_cons _ _ _
      have entries : before.snapshot (first :: rest) =
          (first, before.get? first) :: before.snapshot rest := rfl
      rw [step, entries]
      cases held : before.get? first with
      | none =>
          exact ⟨restores, calm_delete calmRest first,
            (VectorStore.dimension_delete _ first).trans dimensionRest⟩
      | some r =>
          obtain ⟨-, valid⟩ := sound first r held
          rw [← dimensionRest] at valid
          rcases (i.restore (before.snapshot rest)).store.upsert_cases valid with
            ⟨store, ok, written⟩ | ⟨cause, store, error, refused⟩
          · have one : (i.restore (before.snapshot rest)).upsert r =
                (.ok (), { i.restore (before.snapshot rest) with store }) := by
              simp only [upsert, ok]
            simp only [VectorIndex.restores, putBack, one, restores]
            exact ⟨rfl, written.calm calmRest, written.dimension.trans dimensionRest⟩
          · exact absurd calmRest refused.restless

end VectorIndex

/-! ## Vectors after a commit -/

namespace IndexState

/-- The vectors read as before, and at most one of the coming writes is refused. -/
structure SameVectors (before after : VectorIndex) : Prop where
  get : ∀ id, after.get? id = before.get? id
  dimension : after.store.dimension = before.store.dimension
  steady : after.store.Steady

/-- The vectors of a commit: its records are written, those that it drops are gone, and all others
    are as before. -/
structure NewVectors (before : VectorIndex) (u : UnitUpdate) (after : VectorIndex) : Prop where
  valid : ∀ r ∈ u.upserts, r.vector.validate before.store.dimension = .ok ()
  get : ∀ id, (∃ r ∈ u.upserts, r.id = id ∧ after.get? id = some r) ∨
    id ∉ u.upserts.map (·.id) ∧ after.get? id = if id ∈ u.deletes then none else before.get? id
  dimension : after.store.dimension = before.store.dimension
  steady : after.store.Steady

theorem forM_ok {α ε : Type} {f : α → Except ε Unit} {l : List α} (h : l.forM f = .ok ()) :
    ∀ a ∈ l, f a = .ok () := by
  induction l with
  | nil => exact fun a inside => absurd inside List.not_mem_nil
  | cons first rest ih =>
      have both : (f first >>= fun _ => rest.forM f) = .ok () := h
      cases one : f first with
      | error cause =>
          rw [one] at both
          cases both
      | ok _ =>
          rw [one] at both
          exact List.forall_mem_cons.mpr ⟨one, ih both⟩

/-- A commit either leaves the index as it was, or replaces the file together with its vectors. -/
theorem commit_vectors {s : IndexState} (u : UnitUpdate) (sound : s.vectors.Sound)
    (steady : s.vectors.store.Steady) :
    (∃ vectors, (s.commit u).2 = { s with vectors } ∧ SameVectors s.vectors vectors) ∨
      ∃ vectors, (s.commit u).2 = ({ s with vectors } : IndexState).replaceUnit u ∧
        NewVectors s.vectors u vectors := by
  have dropped : (s.vectors.deleteAll u.deletes).2 = s.vectors.dropAll u.deletes :=
    s.vectors.deleteAll_eq u.deletes
  have dimension := s.vectors.dimension_dropAll u.deletes
  have known := commit_cases s u
  generalize s.commit u = result at known ⊢
  cases known with
  | invalid cause => exact .inl ⟨s.vectors, rfl, fun id => rfl, rfl, steady⟩
  | refused cause vectors valid written =>
      have each := forM_ok valid
      rw [dropped] at written
      rcases VectorIndex.upsertAll_cases _ (dimension.symm ▸ each) with
        ⟨after, ok, -⟩ | ⟨_, after, error, broken⟩
      · rw [written] at ok
        cases ok
      · rw [written] at error
        cases error
        have calm := broken.calm (VectorIndex.steady_dropAll steady u.deletes)
        obtain ⟨restores, calmAfter, dimensionAfter⟩ :=
          VectorIndex.restores_snapshot sound (u.deletes ++ u.upserts.map (·.id)) calm
            (broken.dimension.trans dimension)
        refine .inl ⟨_, rfl, fun id => ?_, dimensionAfter, calmAfter.steady⟩
        rw [VectorIndex.get?_restore sound.ownIds restores]
        split
        · rfl
        · rename_i untouched
          rw [List.mem_append, not_or] at untouched
          rw [broken.get id untouched.2, VectorIndex.get?_dropAll, if_neg untouched.1]
  | replaced vectors valid written =>
      have each := forM_ok valid
      rw [dropped] at written
      rcases VectorIndex.upsertAll_cases _ (dimension.symm ▸ each) with
        ⟨after, ok, holds, dimensionAfter, steadyAfter⟩ | ⟨_, after, error, -⟩
      · rw [written] at ok
        cases ok
        refine .inr ⟨vectors, rfl, each, fun id => ?_, dimensionAfter.trans dimension,
          steadyAfter (VectorIndex.steady_dropAll steady u.deletes)⟩
        rw [← VectorIndex.get?_dropAll]
        exact holds id
      · rw [written] at error
        cases error

end IndexState

namespace VectorIndex.Lasting

variable {P : VectorStore → Prop} {s : IndexState}

theorem commit (lasting : Lasting P) (h : P s.vectors.store) (u : UnitUpdate) :
    P (s.commit u).2.vectors.store := by
  have written (vectors : VectorIndex) {result : Except VectorError Unit}
      (same : (s.vectors.deleteAll u.deletes).2.upsertAll u.upserts = (result, vectors)) :
      P vectors.store := by
    have after := lasting.upsertAll (lasting.dropAll h u.deletes) u.upserts
    rw [← s.vectors.deleteAll_eq, same] at after
    exact after
  have known := IndexState.commit_cases s u
  generalize s.commit u = result at known ⊢
  cases known with
  | invalid cause => exact h
  | refused cause vectors valid refused => exact lasting.restore (written vectors refused) _
  | replaced vectors valid ok =>
      rw [show (_ : IndexState).vectors = vectors from IndexState.replaceUnit_vectors _ u]
      exact written vectors ok

end VectorIndex.Lasting

end CodeSearch
