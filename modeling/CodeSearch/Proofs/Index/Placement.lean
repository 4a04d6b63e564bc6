import CodeSearch.Proofs.Index.Labels

/-! # Records placed with their files

Every record stands under the id of a symbol whose file lists it as embedded, so that the records of
different files are apart. This holds whatever a store refuses: a commit writes and drops records of
its own file only, also when the records that it had touched cannot all be put back.
-/

namespace CodeSearch

namespace VectorIndex

/-- Writing records touches no id but theirs, also when some of them are refused. -/
theorem upsertAll_get (i : VectorIndex) (records : List Record) (id : SymbolId) :
    (i.upsertAll records).2.get? id = i.get? id ∨
      ∃ r ∈ records, r.id = id ∧ (i.upsertAll records).2.get? id = some r := by
  induction records generalizing i with
  | nil => exact .inl rfl
  | cons first rest ih =>
      have one : (i.upsert first).2.get? id = i.get? id ∨
          first.id = id ∧ (i.upsert first).2.get? id = some first := by
        have get : (i.upsert first).2.get? id = if (i.store.upsert first).1.isOk = true ∧
            id = first.id then some first else i.get? id := i.store.get?_upsert first id
        rw [get]
        split
        · rename_i written
          exact .inr ⟨written.2.symm, rfl⟩
        · exact .inl rfl
      have here {after : VectorIndex} (last : after.get? id = (i.upsert first).2.get? id) :
          after.get? id = i.get? id ∨
            ∃ r ∈ first :: rest, r.id = id ∧ after.get? id = some r := by
        rw [last]
        rcases one with same | ⟨own, written⟩
        · exact .inl same
        · exact .inr ⟨first, List.mem_cons_self, own, written⟩
      simp only [upsertAll]
      split
      · rename_i after ok
        rw [ok] at here
        rcases ih after with same | ⟨r, inside, own, written⟩
        · exact here same
        · exact .inr ⟨r, List.mem_cons_of_mem _ inside, own, written⟩
      · rename_i cause after error
        rw [error] at here
        exact here rfl

/-- Putting records back, every id of the snapshot reads as it did then, and the others stay. Where
    the record is refused that is put back, what stands under its id stays too. -/
theorem restore_get {before : VectorIndex} (own : before.store.OwnIds) (i : VectorIndex)
    (ids : List SymbolId) (id : SymbolId) :
    (i.restore (before.snapshot ids)).get? id = (if id ∈ ids then before.get? id else i.get? id) ∨
      (∃ r, before.get? id = some r) ∧ (i.restore (before.snapshot ids)).get? id = i.get? id := by
  induction ids with
  | nil => exact .inl rfl
  | cons first rest ih =>
      have step : i.restore (before.snapshot (first :: rest)) =
          (i.restore (before.snapshot rest)).putBack (first, before.get? first) := restore_cons _ _ _
      by_cases here : id = first
      · subst here
        rw [if_pos List.mem_cons_self]
        cases held : before.get? id with
        | none =>
            rw [step, held]
            exact .inl ((VectorStore.get?_delete _ id id).trans (if_pos rfl))
        | some r =>
            have same : r.id = id := own id r held
            have get := (i.restore (before.snapshot rest)).store.get?_upsert r id
            rw [step, held]
            by_cases written : ((i.restore (before.snapshot rest)).store.upsert r).1.isOk = true
            · exact .inl (get.trans (if_pos ⟨written, same.symm⟩))
            · have stays := get.trans (if_neg fun both => written both.1)
              rw [held] at ih
              rcases ih with last | ⟨-, last⟩
              · split at last
                · exact .inl (stays.trans last)
                · exact .inr ⟨⟨r, rfl⟩, stays.trans last⟩
              · exact .inr ⟨⟨r, rfl⟩, stays.trans last⟩
      · have stays : (i.restore (before.snapshot (first :: rest))).get? id =
            (i.restore (before.snapshot rest)).get? id := by
          rw [step]
          cases held : before.get? first with
          | none => exact (VectorStore.get?_delete _ first id).trans (if_neg here)
          | some r =>
              refine (VectorStore.get?_upsert _ r id).trans (if_neg fun both => here ?_)
              exact both.2.trans (own first r held)
        have listed : id ∈ first :: rest ↔ id ∈ rest := by simp [here]
        rw [stays]
        simp only [listed]
        exact ih

end VectorIndex

namespace IndexState

/-- What a commit that is refused leaves of the vectors, whatever can be put back: other ids are not
    touched, and nothing stands where there was nothing. -/
structure LeftVectors (before : VectorIndex) (u : UnitUpdate) (after : VectorIndex) : Prop where
  others : ∀ id, id ∉ u.deletes → id ∉ u.upserts.map (·.id) → after.get? id = before.get? id
  left : ∀ id r, after.get? id = some r → ∃ old, before.get? id = some old ∧
    (r = old ∨ r ∈ u.upserts ∧ r.id = id)

/-- Under every id stands a record of the commit, or what it leaves there. -/
def Wrote (before : VectorIndex) (u : UnitUpdate) (after : VectorIndex) : Prop :=
  ∀ id, (∃ r ∈ u.upserts, r.id = id ∧ after.get? id = some r) ∨
    id ∉ u.upserts.map (·.id) ∧ after.get? id = if id ∈ u.deletes then none else before.get? id

theorem commit_left {s : IndexState} (own : s.vectors.store.OwnIds) (u : UnitUpdate) :
    (∃ vectors, (s.commit u).2 = { s with vectors } ∧ LeftVectors s.vectors u vectors) ∨
      ∃ vectors, (s.commit u).2 = ({ s with vectors } : IndexState).replaceUnit u ∧
        Wrote s.vectors u vectors := by
  have dropped : (s.vectors.deleteAll u.deletes).2 = s.vectors.dropAll u.deletes :=
    s.vectors.deleteAll_eq u.deletes
  have known := commit_cases s u
  generalize s.commit u = result at known ⊢
  cases known with
  | invalid cause =>
      exact .inl ⟨s.vectors, rfl, fun _ _ _ => rfl, fun id r held => ⟨r, held, .inl rfl⟩⟩
  | refused cause vectors valid written =>
      rw [dropped] at written
      have get := (s.vectors.dropAll u.deletes).upsertAll_get u.upserts
      rw [written] at get
      have restored :=
        VectorIndex.restore_get own vectors (u.deletes ++ u.upserts.map (·.id))
      refine .inl ⟨_, rfl, fun id kept unwritten => ?_, fun id r held => ?_⟩
      · have untouched : id ∉ u.deletes ++ u.upserts.map (·.id) := by
          rw [List.mem_append, not_or]
          exact ⟨kept, unwritten⟩
        have same := restored id
        rw [if_neg untouched] at same
        rw [same.elim (fun last => last) And.right]
        rcases get id with last | ⟨r, inside, rfl, -⟩
        · rw [last, VectorIndex.get?_dropAll, if_neg kept]
        · exact absurd (List.mem_map_of_mem inside) unwritten
      · have there (known : vectors.get? id = some r)
            (touched : id ∈ u.upserts.map (·.id) → ∃ old, s.vectors.get? id = some old) :
            ∃ old, s.vectors.get? id = some old ∧ (r = old ∨ r ∈ u.upserts ∧ r.id = id) := by
          rcases get id with last | ⟨other, inside, own, last⟩
          · rw [last, VectorIndex.get?_dropAll] at known
            split at known
            · cases known
            · exact ⟨r, known, .inl rfl⟩
          · rw [last] at known
            cases known
            obtain ⟨old, before⟩ := touched (List.mem_map.mpr ⟨r, inside, own⟩)
            exact ⟨old, before, .inr ⟨inside, own⟩⟩
        rcases restored id with same | ⟨before, same⟩
        · rw [same] at held
          split at held
          · exact ⟨r, held, .inl rfl⟩
          · rename_i untouched
            exact there held fun written => absurd (List.mem_append_right _ written) untouched
        · exact there (same.symm.trans held) fun _ => before
  | replaced vectors valid written =>
      rw [dropped] at written
      have each : ∀ r ∈ u.upserts,
          r.vector.validate (s.vectors.dropAll u.deletes).store.dimension = .ok () :=
        (s.vectors.dimension_dropAll u.deletes).symm ▸ forM_ok valid
      rcases VectorIndex.upsertAll_cases _ each with ⟨after, ok, holds, -⟩ | ⟨_, after, error, -⟩
      · rw [written] at ok
        cases ok
        refine .inr ⟨vectors, rfl, fun id => ?_⟩
        rw [← VectorIndex.get?_dropAll]
        exact holds id
      · rw [written] at error
        cases error

/-- Every record is of a held symbol, whose file lists it as embedded. -/
structure Placed (s : IndexState) : Prop where
  listed : s.Listed
  ownIds : s.vectors.store.OwnIds
  place : ∀ id r, s.vectors.get? id = some r → ∃ symbol, s.symbol? id = some symbol ∧
    id ∈ s.embeddedOf symbol.unit.path ∧ r.metadata.path = symbol.unit.path

theorem Placed.empty {vectors : VectorIndex} (none : ∀ id, vectors.get? id = none) :
    Placed { vectors } := by
  have absent (id : SymbolId) (r : Record) : vectors.get? id ≠ some r := by
    rw [none id]
    exact Option.some_ne_none r ∘ Eq.symm
  exact ⟨fun _ _ listed => absurd listed List.not_mem_nil,
    fun id r held => absurd held (absent id r), fun id r held => absurd held (absent id r)⟩

section

variable {s : IndexState} {u : UnitUpdate}

theorem Placed.withFeedback (h : Placed s) (feedback : FeedbackStore) : Placed { s with feedback } :=
  ⟨h.listed, h.ownIds, h.place⟩

theorem Placed.withVectors (h : Placed s) {vectors : VectorIndex}
    (same : ∀ id, vectors.get? id = s.vectors.get? id) : Placed { s with vectors } := by
  refine ⟨h.listed, fun id r held => ?_, fun id r held => ?_⟩
  · exact h.ownIds id r ((same id).symm.trans held)
  · exact h.place id r ((same id).symm.trans held)

theorem Placed.replaceUnit (h : Placed s) (consistent : s.Consistent) (fits : Fits s u)
    (labels : Labels s u) {vectors : VectorIndex} (ownIds : vectors.store.OwnIds)
    (wrote : Wrote s.vectors u vectors) :
    Placed (({ s with vectors } : IndexState).replaceUnit u) := by
  have base : ({ s with vectors } : IndexState).Consistent := consistent.withVectors vectors
  have fitsBase : Fits { s with vectors } u := fits.withVectors vectors
  have vectorsThen : (({ s with vectors } : IndexState).replaceUnit u).vectors = vectors :=
    replaceUnit_vectors _ u
  refine ⟨h.listed.replaceUnit consistent fits labels vectors, vectorsThen.symm ▸ ownIds, ?_⟩
  have own {symbol : Symbol} (inside : symbol ∈ u.symbols) : symbol.unit.path = u.unit.path :=
    congrArg UnitRef.path (fits.unit symbol inside)
  intro id r held
  rw [vectorsThen] at held
  have fresh {symbol : Symbol} (inside : symbol ∈ u.symbols) (same : symbol.id = id)
      (path : r.metadata.path = u.unit.path) (listed : id ∈ IdSet.union
        (u.deletes.foldl IdSet.erase (s.embeddedOf u.unit.path)) (u.upserts.map (·.id))) :
      ∃ symbol, (({ s with vectors } : IndexState).replaceUnit u).symbol? id = some symbol ∧
        id ∈ (({ s with vectors } : IndexState).replaceUnit u).embeddedOf symbol.unit.path ∧
          r.metadata.path = symbol.unit.path := by
    refine ⟨symbol, (symbol?_replaceUnit base fitsBase id symbol).mpr (.inl ⟨inside, same⟩), ?_,
      path.trans (own inside).symm⟩
    rw [embeddedOf_replaceUnit, if_pos (own inside)]
    exact listed
  rcases wrote id with ⟨w, inside, same, heldToo⟩ | ⟨unwritten, before⟩
  · rw [held] at heldToo
    cases heldToo
    obtain ⟨symbol, hs, ownId, label⟩ := labels.written r inside
    refine fresh hs (ownId.trans same) ?_ (IdSet.mem_union.mpr (.inr (List.mem_map.mpr ⟨r, inside, same⟩)))
    rw [label]
    exact own hs
  · rw [held] at before
    split at before
    · cases before
    · rename_i stays
      obtain ⟨symbol, heldSymbol, listed, path⟩ := h.place id r before.symm
      by_cases here : symbol.unit.path = u.unit.path
      · rw [here] at listed
        obtain ⟨next, hs, ownId, -⟩ := labels.kept id listed stays
        exact fresh hs ownId (path.trans here)
          (IdSet.mem_union.mpr (.inl (IdSet.mem_eraseAll.mpr ⟨listed, stays⟩)))
      · refine ⟨symbol, (symbol?_replaceUnit base fitsBase id symbol).mpr
          (.inr ⟨heldSymbol, here⟩), ?_, path⟩
        rw [embeddedOf_replaceUnit, if_neg here]
        exact listed

theorem Placed.commit (h : Placed s) (consistent : s.Consistent) (fits : Fits s u)
    (labels : Labels s u) : Placed (s.commit u).2 := by
  have ownIds := VectorIndex.ownIds_lasting.commit h.ownIds u
  rcases commit_left h.ownIds u with ⟨vectors, after, left⟩ | ⟨vectors, after, wrote⟩
  · rw [after] at ownIds ⊢
    refine ⟨h.listed, ownIds, fun id r held => ?_⟩
    obtain ⟨old, before, rfl | ⟨inside, own⟩⟩ := left.left id r held
    · exact h.place id r before
    · -- what could not be put back is of the version that was to come, which has the path too
      obtain ⟨symbol, heldSymbol, listed, -⟩ := h.place id old before
      obtain ⟨next, hs, ownId, label⟩ := labels.written r inside
      have same : next.unit.path = u.unit.path := congrArg UnitRef.path (fits.unit next hs)
      have here : symbol.unit.path = u.unit.path :=
        fits.apart next hs symbol ((ownId.trans own).symm ▸ heldSymbol)
      exact ⟨symbol, heldSymbol, listed, by rw [label, here]; exact same⟩
  · rw [after] at ownIds ⊢
    rw [show (_ : IndexState).vectors = vectors from replaceUnit_vectors _ u] at ownIds
    exact h.replaceUnit consistent fits labels ownIds wrote

theorem Placed.removeUnit (h : Placed s) (consistent : s.Consistent) (path : String) :
    Placed (s.removeUnit path).2 := by
  refine ⟨h.listed.removeUnit consistent path,
    removeUnit_lasting VectorIndex.ownIds_lasting h.ownIds path, fun id r held => ?_⟩
  rw [removeUnit_vectors, VectorIndex.get?_dropAll] at held
  split at held
  · cases held
  · rename_i unlisted
    obtain ⟨symbol, heldSymbol, listed, label⟩ := h.place id r held
    have elsewhere : symbol.unit.path ≠ path := fun here => unlisted (here ▸ listed)
    refine ⟨symbol, (symbol?_removeUnit consistent path id symbol).mpr ⟨heldSymbol, elsewhere⟩, ?_,
      label⟩
    rw [embeddedOf_removeUnit, if_neg elsewhere]
    exact listed

theorem Placed.pruneStale (h : Placed s) (consistent : s.Consistent) : Placed s.pruneStale.2 := by
  have vectors := consistent.vectors_pruneStale
  refine ⟨h.listed.pruneStale consistent, vectors.symm ▸ h.ownIds, fun id r held => ?_⟩
  rw [vectors] at held
  obtain ⟨symbol, heldSymbol, inside, label⟩ := h.place id r held
  refine ⟨symbol, (symbol?_pruneStale consistent id).trans heldSymbol, ?_, label⟩
  rw [h.listed.embeddedOf_pruneStale consistent]
  exact inside

end

/-- Whatever a pass does to an index, its records stay placed. -/
theorem Placed.effect {changes : List FileChange} {w₀ : CodeIndex} {request : Request}
    {s : IndexState} (h : Placed w₀.state)
    (tracked : Tracked w₀.registered w₀.config.pipeline.snippetChars changes w₀.state)
    (apart : Seed.Apart (seedsOf w₀.registered w₀.config.pipeline.snippetChars changes))
    (effect : Effect changes w₀ request s) : Placed s := by
  cases effect with
  | none => exact h
  | remove path _ => exact h.removeUnit tracked.consistent path
  | commit d => exact h.commit tracked.consistent (tracked.fits apart d) (d.labels h.ownIds)

/-! ## What a pass looks at -/

/-- What a pass over a path looks at is the same in another state. -/
structure SameAt (path : String) (s t : IndexState) : Prop where
  unit : t.unit? path = s.unit? path
  symbols : t.symbolsOf path = s.symbolsOf path
  records : ∀ id ∈ s.embeddedOf path, t.vectors.get? id = s.vectors.get? id

section

variable {s t : IndexState} {u : UnitUpdate} {path other : String}

theorem SameAt.refl (path : String) (s : IndexState) : s.SameAt path s :=
  ⟨rfl, rfl, fun _ _ => rfl⟩

theorem SameAt.trans {r : IndexState} (first : r.SameAt path s) (second : s.SameAt path t) :
    r.SameAt path t := by
  refine ⟨second.unit.trans first.unit, second.symbols.trans first.symbols, fun id listed => ?_⟩
  have listedThen : id ∈ s.embeddedOf path := by
    rw [embeddedOf, first.unit]
    exact listed
  exact (second.records id listedThen).trans (first.records id listed)

/-- A commit leaves alone what passes over other paths look at: no other path lists what it drops,
    and none has an id that it writes. -/
theorem Placed.sameAt_commit (h : Placed s) (consistent : s.Consistent) (fits : Fits s u)
    (labels : Labels s u) (different : path ≠ u.unit.path) : s.SameAt path (s.commit u).2 := by
  have kept {id : SymbolId} (listed : id ∈ s.embeddedOf path) : id ∉ u.deletes := fun gone =>
    different (h.listed.place_unique listed (labels.dropped id gone))
  have unwritten {id : SymbolId} (listed : id ∈ s.embeddedOf path) : id ∉ u.upserts.map (·.id) := by
    intro written
    obtain ⟨r, inside, rfl⟩ := List.mem_map.mp written
    obtain ⟨symbol, held, place⟩ := h.listed path r.id listed
    obtain ⟨next, hs, own, -⟩ := labels.written r inside
    exact different (place.symm.trans (fits.apart next hs symbol (own ▸ held)))
  rcases commit_left h.ownIds u with ⟨vectors, after, left⟩ | ⟨vectors, after, wrote⟩
  · rw [after]
    exact ⟨rfl, rfl, fun id listed => left.others id (kept listed) (unwritten listed)⟩
  · rw [after]
    refine ⟨?unit, ?symbols, fun id listed => ?records⟩
    case unit => exact (unit?_replaceUnit _ u path).trans (if_neg different)
    case symbols =>
      exact symbolsOf_replaceUnit_other (consistent.withVectors vectors) (fits.withVectors vectors)
        different
    case records =>
      rw [replaceUnit_vectors]
      rcases wrote id with ⟨r, inside, own, -⟩ | ⟨-, rest⟩
      · exact absurd (List.mem_map.mpr ⟨r, inside, own⟩) (unwritten listed)
      · exact rest.trans (if_neg (kept listed))

theorem Placed.sameAt_removeUnit (h : Placed s) (consistent : s.Consistent)
    (different : other ≠ path) : s.SameAt other (s.removeUnit path).2 := by
  refine ⟨?unit, ?symbols, fun id listed => ?records⟩
  case unit => exact (unit?_removeUnit s path other).trans (if_neg different)
  case symbols => exact (symbolsOf_removeUnit consistent path other).trans (if_neg different)
  case records =>
    rw [removeUnit_vectors, VectorIndex.get?_dropAll,
      if_neg fun gone => different (h.listed.place_unique listed gone)]

theorem Placed.sameAt_pruneStale (h : Placed s) (consistent : s.Consistent) (path : String) :
    s.SameAt path s.pruneStale.2 := by
  refine ⟨h.listed.unit?_pruneStale consistent path, symbolsOf_pruneStale consistent path, ?_⟩
  rw [pruneStale_eq consistent]
  exact fun _ _ => rfl

/-- What a pass does leaves alone what passes over other paths look at. -/
theorem Placed.sameAt_effect {changes : List FileChange} {w₀ : CodeIndex} {request : Request}
    {after : IndexState} (h : Placed w₀.state)
    (tracked : Tracked w₀.registered w₀.config.pipeline.snippetChars changes w₀.state)
    (apart : Seed.Apart (seedsOf w₀.registered w₀.config.pipeline.snippetChars changes))
    (effect : Effect changes w₀ request after) (different : path ≠ request.path) :
    w₀.state.SameAt path after := by
  cases effect with
  | none => exact .refl path w₀.state
  | remove path asked =>
      rw [asked] at different
      exact h.sameAt_removeUnit tracked.consistent different
  | commit d =>
      rw [d.asked] at different
      exact h.sameAt_commit tracked.consistent (tracked.fits apart d) (d.labels h.ownIds) different

end

end IndexState

end CodeSearch
