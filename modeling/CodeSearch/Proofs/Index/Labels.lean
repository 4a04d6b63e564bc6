import CodeSearch.Proofs.Index.Freshness
import CodeSearch.Proofs.Vector.Search

/-! # Records labelled with their symbols

A search is restricted by the metadata in the records, of which the symbols know nothing. Along
every run a record has the metadata of the symbol that is held under its id, whatever the embedder
answers: a pass writes the records of symbols whose metadata are new also where their vectors stay.
-/

namespace CodeSearch

theorem VectorStore.distinct_lasting : VectorIndex.Lasting VectorStore.Distinct :=
  ⟨fun _ r distinct => distinct.upsert r, fun _ id distinct => distinct.delete id,
    fun _ numbers distinct => distinct.failWrites numbers⟩

namespace IndexState

/-- Every record has the metadata of a held symbol, whose file lists it as embedded. -/
def Labelled (s : IndexState) : Prop :=
  ∀ id r, s.vectors.get? id = some r → ∃ symbol, s.symbol? id = some symbol ∧
    id ∈ s.embeddedOf symbol.unit.path ∧ r.metadata = symbol.metadata

/-- What a commit needs to keep the records labelled. -/
structure Labels (s : IndexState) (u : UnitUpdate) : Prop where
  written : ∀ r ∈ u.upserts, ∃ symbol ∈ u.symbols, symbol.id = r.id ∧ r.metadata = symbol.metadata
  dropped : ∀ id ∈ u.deletes, id ∈ s.embeddedOf u.unit.path
  /-- What the file has embedded and the commit does not drop belongs to the new version, and is
      labelled like it unless it is written. -/
  kept : ∀ id ∈ s.embeddedOf u.unit.path, id ∉ u.deletes → ∃ symbol ∈ u.symbols, symbol.id = id ∧
    (id ∉ u.upserts.map (·.id) → ∀ r, s.vectors.get? id = some r → r.metadata = symbol.metadata)

/-- What keeps the records of an index labelled and listed once. -/
structure Labelling (s : IndexState) : Prop where
  listed : s.Listed
  labelled : s.Labelled
  sound : s.vectors.Sound
  steady : s.vectors.store.Steady
  distinct : s.vectors.store.Distinct

variable {s : IndexState} {u : UnitUpdate} {vectors : VectorIndex}

theorem Listed.replaceUnit (h : s.Listed) (consistent : s.Consistent) (fits : Fits s u)
    (labels : Labels s u) (vectors : VectorIndex) :
    (({ s with vectors } : IndexState).replaceUnit u).Listed := by
  have base : ({ s with vectors } : IndexState).Consistent := consistent.withVectors vectors
  have fitsBase : Fits { s with vectors } u := fits.withVectors vectors
  have new {symbol : Symbol} (inside : symbol ∈ u.symbols) :
      (({ s with vectors } : IndexState).replaceUnit u).symbol? symbol.id = some symbol ∧
        symbol.unit.path = u.unit.path :=
    ⟨(symbol?_replaceUnit base fitsBase _ symbol).mpr (.inl ⟨inside, rfl⟩),
      congrArg UnitRef.path (fits.unit symbol inside)⟩
  intro path id listed
  rw [embeddedOf_replaceUnit] at listed
  split at listed
  · rename_i here
    rw [here]
    rcases IdSet.mem_union.mp listed with before | written
    · obtain ⟨before, stays⟩ := IdSet.mem_eraseAll.mp before
      obtain ⟨symbol, inside, rfl, -⟩ := labels.kept id before stays
      exact ⟨symbol, new inside⟩
    · obtain ⟨r, hr, rfl⟩ := List.mem_map.mp written
      obtain ⟨symbol, inside, same, -⟩ := labels.written r hr
      exact ⟨symbol, same ▸ new inside⟩
  · rename_i elsewhere
    obtain ⟨symbol, held, rfl⟩ := h path id listed
    exact ⟨symbol, (symbol?_replaceUnit base fitsBase id symbol).mpr (.inr ⟨held, elsewhere⟩), rfl⟩

theorem Listed.removeUnit (h : s.Listed) (consistent : s.Consistent) (path : String) :
    (s.removeUnit path).2.Listed := by
  intro other id listed
  rw [embeddedOf_removeUnit] at listed
  split at listed
  · exact absurd listed List.not_mem_nil
  · rename_i elsewhere
    obtain ⟨symbol, held, rfl⟩ := h other id listed
    exact ⟨symbol, (symbol?_removeUnit consistent path id symbol).mpr ⟨held, elsewhere⟩, rfl⟩

theorem Listed.pruneStale (h : s.Listed) (consistent : s.Consistent) : s.pruneStale.2.Listed := by
  intro path id listed
  rw [h.embeddedOf_pruneStale consistent] at listed
  obtain ⟨symbol, held, place⟩ := h path id listed
  exact ⟨symbol, (symbol?_pruneStale consistent id).trans held, place⟩

theorem Labelled.replaceUnit (h : s.Labelled) (consistent : s.Consistent) (fits : Fits s u)
    (labels : Labels s u) (new : NewVectors s.vectors u vectors) :
    (({ s with vectors } : IndexState).replaceUnit u).Labelled := by
  have base : ({ s with vectors } : IndexState).Consistent := consistent.withVectors vectors
  have fitsBase : Fits { s with vectors } u := fits.withVectors vectors
  have embedded (path : String) :
      (({ s with vectors } : IndexState).replaceUnit u).embeddedOf path =
        if path = u.unit.path then
          IdSet.union (u.deletes.foldl IdSet.erase (s.embeddedOf u.unit.path)) (u.upserts.map (·.id))
        else s.embeddedOf path := embeddedOf_replaceUnit { s with vectors } u path
  have written : (({ s with vectors } : IndexState).replaceUnit u).vectors = vectors :=
    replaceUnit_vectors _ u
  intro id r held
  rw [written] at held
  have fresh {symbol : Symbol} (inside : symbol ∈ u.symbols) (same : symbol.id = id)
      (label : r.metadata = symbol.metadata)
      (listed : (id ∈ s.embeddedOf u.unit.path ∧ id ∉ u.deletes) ∨ id ∈ u.upserts.map (·.id)) :
      ∃ symbol, (({ s with vectors } : IndexState).replaceUnit u).symbol? id = some symbol ∧
        id ∈ (({ s with vectors } : IndexState).replaceUnit u).embeddedOf symbol.unit.path ∧
          r.metadata = symbol.metadata := by
    have place : symbol.unit.path = u.unit.path := congrArg UnitRef.path (fits.unit symbol inside)
    refine ⟨symbol, (symbol?_replaceUnit base fitsBase id symbol).mpr (.inl ⟨inside, same⟩), ?_, label⟩
    rw [embedded, if_pos place, IdSet.mem_union, IdSet.mem_eraseAll]
    exact listed
  rcases new.get id with ⟨w, inside, same, heldToo⟩ | ⟨unwritten, before⟩
  · rw [held] at heldToo
    cases heldToo
    obtain ⟨symbol, hs, own, label⟩ := labels.written r inside
    exact fresh hs (own.trans same) label (.inr (List.mem_map.mpr ⟨r, inside, same⟩))
  · rw [held] at before
    split at before
    · cases before
    · rename_i stays
      obtain ⟨symbol, heldSymbol, listed, label⟩ := h id r before.symm
      by_cases here : symbol.unit.path = u.unit.path
      · rw [here] at listed
        obtain ⟨next, hs, own, label⟩ := labels.kept id listed stays
        exact fresh hs own (label unwritten r before.symm) (.inl ⟨listed, stays⟩)
      · refine ⟨symbol, (symbol?_replaceUnit base fitsBase id symbol).mpr
          (.inr ⟨heldSymbol, here⟩), ?_, label⟩
        rw [embedded, if_neg here]
        exact listed

theorem Labelled.removeUnit (h : s.Labelled) (consistent : s.Consistent) (path : String) :
    (s.removeUnit path).2.Labelled := by
  intro id r held
  rw [removeUnit_vectors, VectorIndex.get?_dropAll] at held
  split at held
  · cases held
  · rename_i unlisted
    obtain ⟨symbol, heldSymbol, listed, label⟩ := h id r held
    have elsewhere : symbol.unit.path ≠ path := fun here => unlisted (here ▸ listed)
    refine ⟨symbol, (symbol?_removeUnit consistent path id symbol).mpr ⟨heldSymbol, elsewhere⟩, ?_,
      label⟩
    rw [embeddedOf_removeUnit, if_neg elsewhere]
    exact listed

theorem Labelled.pruneStale (h : s.Labelled) (listed : s.Listed) (consistent : s.Consistent) :
    s.pruneStale.2.Labelled := by
  have vectors := consistent.vectors_pruneStale
  intro id r held
  rw [vectors] at held
  obtain ⟨symbol, heldSymbol, inside, label⟩ := h id r held
  refine ⟨symbol, (symbol?_pruneStale consistent id).trans heldSymbol, ?_, label⟩
  rw [listed.embeddedOf_pruneStale consistent]
  exact inside

theorem Labelling.withVectors (h : Labelling s) (same : SameVectors s.vectors vectors)
    (distinct : vectors.store.Distinct) : Labelling { s with vectors } :=
  ⟨h.listed, fun id r held => h.labelled id r ((same.get id).symm.trans held), same.sound h.sound,
    same.steady, distinct⟩

theorem Labelling.withFeedback (h : Labelling s) (feedback : FeedbackStore) :
    Labelling { s with feedback } :=
  ⟨h.listed, h.labelled, h.sound, h.steady, h.distinct⟩

/-- A commit that writes what is new keeps the records labelled, whether it is refused or not. -/
theorem Labelling.commit (h : Labelling s) (consistent : s.Consistent) (fits : Fits s u)
    (labels : Labels s u) : Labelling (s.commit u).2 := by
  have distinct := VectorStore.distinct_lasting.commit h.distinct u
  rcases commit_vectors u h.sound h.steady with ⟨vectors, after, same⟩ | ⟨vectors, after, new⟩
  · rw [after] at distinct ⊢
    exact h.withVectors same distinct
  · have written : (({ s with vectors } : IndexState).replaceUnit u).vectors = vectors :=
      replaceUnit_vectors _ u
    rw [after] at distinct ⊢
    exact ⟨h.listed.replaceUnit consistent fits labels vectors,
      h.labelled.replaceUnit consistent fits labels new, written.symm ▸ new.sound h.sound,
      written.symm ▸ new.steady, distinct⟩

theorem Labelling.removeUnit (h : Labelling s) (consistent : s.Consistent) (path : String) :
    Labelling (s.removeUnit path).2 :=
  ⟨h.listed.removeUnit consistent path, h.labelled.removeUnit consistent path,
    removeUnit_sound h.sound path, removeUnit_steady h.steady path,
    removeUnit_lasting VectorStore.distinct_lasting h.distinct path⟩

theorem Labelling.pruneStale (h : Labelling s) (consistent : s.Consistent) :
    Labelling s.pruneStale.2 := by
  have vectors := consistent.vectors_pruneStale
  exact ⟨h.listed.pruneStale consistent, h.labelled.pruneStale h.listed consistent,
    vectors.symm ▸ h.sound, vectors.symm ▸ h.steady, vectors.symm ▸ h.distinct⟩

theorem Labelling.empty {vectors : VectorIndex} (none : ∀ id, vectors.get? id = none)
    (steady : vectors.store.Steady) (distinct : vectors.store.Distinct) : Labelling { vectors } := by
  have absent (id : SymbolId) (r : Record) : vectors.get? id ≠ some r := by
    rw [none id]
    exact Option.some_ne_none r ∘ Eq.symm
  exact ⟨fun _ _ listed => absurd listed List.not_mem_nil,
    fun id r held => absurd held (absent id r), fun id r held => absurd held (absent id r), steady,
    distinct⟩

end IndexState

/-! ## What a pass writes -/

section

open IndexState (Labels Labelling SameVectors)

variable {changes : List FileChange} {w₀ : CodeIndex} {request : Request}

/-- A symbol that is embedded anew is written. -/
theorem Draft.written (d : Draft changes w₀ request) {s : Symbol} (hs : s ∈ d.plan.toEmbed) :
    s.id ∈ d.update.upserts.map (·.id) := by
  have paired : (d.plan.toEmbed.zip d.vectors).map Prod.fst = d.plan.toEmbed :=
    List.map_fst_zip (Nat.le_of_eq d.vectors_length.symm)
  rw [← paired] at hs
  obtain ⟨⟨s, v⟩, pair, rfl⟩ := List.mem_map.mp hs
  exact List.mem_map.mpr
    ⟨⟨s.id, v, s.metadata⟩, List.mem_append_right _ (List.mem_map.mpr ⟨(s, v), pair, rfl⟩), rfl⟩

theorem Draft.labels (d : Draft changes w₀ request) (ids : w₀.state.vectors.store.OwnIds) :
    Labels w₀.state d.update := by
  have embedded {id : SymbolId} : id ∈ w₀.state.embeddedOf d.update.unit.path ↔
      id ∈ d.job.embedded := by
    rw [d.embedded_eq]
    rfl
  constructor
  case written =>
    intro r hr
    rcases List.mem_append.mp hr with refreshed | new
    · obtain ⟨s, hs, held, present, -, rfl⟩ := Pass.mem_refreshed.mp refreshed
      have own : held.id = s.id := ids s.id held present
      exact ⟨s, w₀.config.chunking.select_subset _ (Plan.mem_kept.mp hs).1, own.symm, rfl⟩
    · obtain ⟨⟨s, v⟩, pair, rfl⟩ := List.mem_map.mp new
      have hs : s ∈ d.plan.toEmbed := (List.of_mem_zip pair).1
      exact ⟨s, w₀.config.chunking.select_subset _ (Plan.mem_toEmbed.mp hs).1, rfl, rfl⟩
  case dropped => exact fun id gone => embedded.mpr (Plan.mem_deletes.mp gone).1
  case kept =>
    intro id listed stays
    have selected : id ∈ IndexState.selectedIds w₀.config.chunking d.plan.symbols := by
      by_contra unselected
      exact stays (Plan.mem_deletes.mpr ⟨embedded.mp listed, unselected⟩)
    obtain ⟨s, chosen, rfl⟩ := List.mem_map.mp selected
    refine ⟨s, w₀.config.chunking.select_subset _ chosen, rfl, fun unwritten r held => ?_⟩
    have unchanged : s.id ∉ Plan.changedIds d.job (d.extracted d.parsed) := fun changed =>
      unwritten (d.written (Plan.mem_toEmbed.mpr ⟨chosen, .inl changed⟩))
    have hs : s ∈ d.plan.kept := Plan.mem_kept.mpr ⟨chosen, unchanged, embedded.mp listed⟩
    -- a record with other metadata would have been written again
    by_contra other
    have own : r.id = s.id := ids s.id r held
    exact unwritten (List.mem_map.mpr ⟨_, List.mem_append_left _
      (Pass.mem_refreshed.mpr ⟨s, hs, r, held, other, rfl⟩), own⟩)

/-- Whatever a pass does to an index, its records stay labelled. -/
theorem IndexState.Labelling.effect (h : Labelling w₀.state)
    (tracked : Tracked w₀.registered w₀.config.pipeline.snippetChars changes w₀.state)
    (apart : Seed.Apart (seedsOf w₀.registered w₀.config.pipeline.snippetChars changes))
    {s : IndexState} (effect : Effect changes w₀ request s) : Labelling s := by
  cases effect with
  | none => exact h
  | remove path _ => exact h.removeUnit tracked.consistent path
  | commit d => exact h.commit tracked.consistent (tracked.fits apart d) (d.labels h.sound.ownIds)

end

end CodeSearch
