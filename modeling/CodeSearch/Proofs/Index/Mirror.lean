import CodeSearch.Proofs.Index.Names
import CodeSearch.Proofs.Index.Pruning
import CodeSearch.Proofs.Index.Selection

/-! # Vectors that mirror the symbols

The vectors of an index mirror its symbols when exactly the selected symbols of each file have one,
and each tells of its symbol what is held of it now. A commit keeps this when it drops what is no
longer selected, and writes every selected symbol unless its vector is up to date.
-/

namespace CodeSearch.IndexState

/-- What a record tells of its symbol is what is held of it. -/
structure Reflects (c : Chunking) (vec : String → Vector) (r : Record) (symbol : Symbol) : Prop where
  id : r.id = symbol.id
  vector : r.vector = vec (c.text symbol)
  metadata : r.metadata = symbol.metadata

/-- The symbols that a path lists as embedded. -/
def embeddedOf (s : IndexState) (path : String) : IdSet :=
  (s.unit? path).elim [] (·.embedded)

/-- The ids of the symbols that are selected. -/
def selectedIds (c : Chunking) (symbols : List Symbol) : List SymbolId :=
  (c.select symbols).map (·.id)

/-- What a file lists as embedded are symbols of it. -/
def Listed (s : IndexState) : Prop :=
  ∀ path, ∀ id ∈ s.embeddedOf path, ∃ symbol, s.symbol? id = some symbol ∧ symbol.unit.path = path

/-- What the files, the symbols and the vectors of an index tell of each other. -/
structure Mirrored (c : Chunking) (vec : String → Vector) (s : IndexState) : Prop where
  ascending : ∀ path, IdSet.Ascending (s.embeddedOf path)
  /-- A file lists the symbols as embedded that are selected. -/
  selected : ∀ path id, id ∈ s.embeddedOf path ↔ id ∈ selectedIds c (s.symbolsOf path)
  /-- There is a record of what some file lists as embedded, and of nothing else. -/
  covered : ∀ id, (∃ r, s.vectors.get? id = some r) ↔ ∃ path, id ∈ s.embeddedOf path
  /-- A record tells what its symbol is now. -/
  fresh : ∀ id r, s.vectors.get? id = some r →
    ∃ symbol, s.symbol? id = some symbol ∧ Reflects c vec r symbol

/-- What keeps the vectors of an index true to its symbols: they mirror them, and can be put back
    when one of them is refused. -/
structure Mirroring (c : Chunking) (vec : String → Vector) (s : IndexState) : Prop extends
    Mirrored c vec s where
  sound : s.vectors.Sound
  steady : s.vectors.store.Steady

/-- What a commit needs to keep the vectors true to the symbols. -/
structure Mirrors (c : Chunking) (vec : String → Vector) (s : IndexState) (u : UnitUpdate) :
    Prop where
  written : ∀ r ∈ u.upserts, ∃ symbol ∈ c.select u.symbols, Reflects c vec r symbol
  /-- What is selected and not written has a record that is up to date. -/
  kept : ∀ symbol ∈ c.select u.symbols, symbol.id ∉ u.upserts.map (·.id) →
    symbol.id ∈ s.embeddedOf u.unit.path ∧
      ∃ r, s.vectors.get? symbol.id = some r ∧ Reflects c vec r symbol
  dropped : ∀ id, id ∈ u.deletes ↔ id ∈ s.embeddedOf u.unit.path ∧ id ∉ selectedIds c u.symbols

variable {c : Chunking} {vec : String → Vector} {s : IndexState}

theorem Mirrored.few (h : Mirrored c vec s) (path : String) :
    (s.embeddedOf path).length ≤ c.maxEmbeddings := by
  have part : s.embeddedOf path ⊆ selectedIds c (s.symbolsOf path) := fun id => (h.selected path id).mp
  calc
    (s.embeddedOf path).length ≤ (selectedIds c (s.symbolsOf path)).length :=
      ((h.ascending path).nodup.subperm part).length_le
    _ = (c.select (s.symbolsOf path)).length := List.length_map _
    _ ≤ c.maxEmbeddings := c.select_length _

theorem Mirrored.listed (h : Mirrored c vec s) (consistent : s.Consistent) : s.Listed := by
  intro path id listed
  obtain ⟨symbol, chosen, rfl⟩ := List.mem_map.mp ((h.selected path id).mp listed)
  exact ⟨symbol, consistent.mem_symbolsOf.mp (c.select_subset _ chosen)⟩

theorem Listed.place_unique (h : s.Listed) {path other : String} {id : SymbolId}
    (listed : id ∈ s.embeddedOf path) (listedToo : id ∈ s.embeddedOf other) : path = other := by
  obtain ⟨symbol, held, rfl⟩ := h path id listed
  obtain ⟨same, heldToo, rfl⟩ := h other id listedToo
  rw [held] at heldToo
  cases heldToo
  rfl

/-- A record of a symbol that a path does not list as embedded belongs to another path. -/
theorem Mirrored.elsewhere (h : Mirrored c vec s) (consistent : s.Consistent) {path : String}
    {id : SymbolId} {r : Record} (held : s.vectors.get? id = some r)
    (unlisted : id ∉ s.embeddedOf path) :
    (∃ other, other ≠ path ∧ id ∈ s.embeddedOf other) ∧
      ∃ symbol, s.symbol? id = some symbol ∧ symbol.unit.path ≠ path ∧ Reflects c vec r symbol := by
  obtain ⟨other, listed⟩ := (h.covered id).mp ⟨r, held⟩
  obtain ⟨symbol, heldSymbol, reflects⟩ := h.fresh id r held
  obtain ⟨same, heldToo, rfl⟩ := h.listed consistent other id listed
  rw [heldSymbol] at heldToo
  cases heldToo
  have different : symbol.unit.path ≠ path := fun here => unlisted (here ▸ listed)
  exact ⟨⟨symbol.unit.path, different, listed⟩, symbol, heldSymbol, different, reflects⟩

/-! ## Replacing a file -/

theorem embeddedOf_replaceUnit (s : IndexState) (u : UnitUpdate) (path : String) :
    (s.replaceUnit u).embeddedOf path =
      if path = u.unit.path then
        IdSet.union (u.deletes.foldl IdSet.erase (s.embeddedOf u.unit.path)) (u.upserts.map (·.id))
      else s.embeddedOf path := by
  rw [embeddedOf, unit?_replaceUnit]
  split
  · rfl
  · rfl

theorem symbolsOf_replaceUnit {u : UnitUpdate} (consistent : s.Consistent) (fits : Fits s u)
    (path : String) : (s.replaceUnit u).symbolsOf path =
      if path = u.unit.path then u.symbols else s.symbolsOf path := by
  split
  · rename_i same
    rw [same, symbolsOf_replaceUnit_self consistent fits]
  · rename_i different
    exact symbolsOf_replaceUnit_other consistent fits different

section

variable {u : UnitUpdate} {vectors : VectorIndex}

/-- A selected symbol has an up-to-date record after the commit. -/
theorem Mirrors.get_selected (mirrors : Mirrors c vec s u) (new : NewVectors s.vectors u vectors)
    {id : SymbolId} (inside : id ∈ selectedIds c u.symbols) :
    ∃ symbol ∈ c.select u.symbols, symbol.id = id ∧
      ∃ r, vectors.get? id = some r ∧ Reflects c vec r symbol := by
  rcases new.get id with ⟨r, written, same, held⟩ | ⟨unwritten, kept⟩
  · obtain ⟨symbol, chosen, reflects⟩ := mirrors.written r written
    exact ⟨symbol, chosen, reflects.id.symm.trans same, r, held, reflects⟩
  · obtain ⟨symbol, chosen, rfl⟩ := List.mem_map.mp inside
    obtain ⟨-, r, held, reflects⟩ := mirrors.kept symbol chosen unwritten
    have stays : symbol.id ∉ u.deletes := fun gone => ((mirrors.dropped _).mp gone).2 inside
    rw [if_neg stays, held] at kept
    exact ⟨symbol, chosen, rfl, r, kept, reflects⟩

/-- Of what is not selected, only the records of other files are left. -/
theorem Mirrors.get_others (mirrors : Mirrors c vec s u) (new : NewVectors s.vectors u vectors)
    {id : SymbolId} (outside : id ∉ selectedIds c u.symbols) :
    vectors.get? id = if id ∈ s.embeddedOf u.unit.path then none else s.vectors.get? id := by
  rcases new.get id with ⟨r, written, same, held⟩ | ⟨-, kept⟩
  · obtain ⟨symbol, chosen, reflects⟩ := mirrors.written r written
    exact absurd (List.mem_map.mpr ⟨symbol, chosen, reflects.id.symm.trans same⟩) outside
  · rw [kept]
    by_cases listed : id ∈ s.embeddedOf u.unit.path
    · rw [if_pos listed, if_pos ((mirrors.dropped id).mpr ⟨listed, outside⟩)]
    · rw [if_neg listed, if_neg fun gone => listed ((mirrors.dropped id).mp gone).1]

theorem Mirrors.mem_embedded (mirrors : Mirrors c vec s u) {id : SymbolId} :
    id ∈ IdSet.union (u.deletes.foldl IdSet.erase (s.embeddedOf u.unit.path))
      (u.upserts.map (·.id)) ↔ id ∈ selectedIds c u.symbols := by
  rw [IdSet.mem_union, IdSet.mem_eraseAll]
  constructor
  · rintro (⟨listed, stays⟩ | written)
    · by_contra outside
      exact stays ((mirrors.dropped id).mpr ⟨listed, outside⟩)
    · obtain ⟨r, inside, rfl⟩ := List.mem_map.mp written
      obtain ⟨symbol, chosen, reflects⟩ := mirrors.written r inside
      exact List.mem_map.mpr ⟨symbol, chosen, reflects.id.symm⟩
  · intro inside
    by_cases written : id ∈ u.upserts.map (·.id)
    · exact .inr written
    · obtain ⟨symbol, chosen, rfl⟩ := List.mem_map.mp inside
      refine .inl ⟨(mirrors.kept symbol chosen written).1, fun gone => ?_⟩
      exact ((mirrors.dropped _).mp gone).2 inside

/-- After the commit there are records of what is selected, and of what other files have embedded. -/
theorem Mirrors.covered (mirrors : Mirrors c vec s u) (new : NewVectors s.vectors u vectors)
    (h : Mirrored c vec s) (consistent : s.Consistent) (id : SymbolId) :
    (∃ r, vectors.get? id = some r) ↔ id ∈ selectedIds c u.symbols ∨
      ∃ path, path ≠ u.unit.path ∧ id ∈ s.embeddedOf path := by
  by_cases inside : id ∈ selectedIds c u.symbols
  · obtain ⟨-, -, -, r, held, -⟩ := mirrors.get_selected new inside
    exact ⟨fun _ => .inl inside, fun _ => ⟨r, held⟩⟩
  · rw [mirrors.get_others new inside]
    constructor
    · rintro ⟨r, held⟩
      split at held
      · cases held
      · rename_i unlisted
        exact .inr (h.elsewhere consistent held unlisted).1
    · rintro (chosen | ⟨path, different, listed⟩)
      · exact absurd chosen inside
      · have unlisted : id ∉ s.embeddedOf u.unit.path := fun listedToo =>
          different ((h.listed consistent).place_unique listed listedToo)
        rw [if_neg unlisted]
        exact (h.covered id).mpr ⟨path, listed⟩

/-- After the commit a record tells what its symbol is, be it one of the new version or of another
    file. -/
theorem Mirrors.fresh (mirrors : Mirrors c vec s u) (new : NewVectors s.vectors u vectors)
    (h : Mirrored c vec s) (consistent : s.Consistent) {id : SymbolId} {r : Record}
    (held : vectors.get? id = some r) : ∃ symbol, Reflects c vec r symbol ∧
      (symbol ∈ u.symbols ∧ symbol.id = id ∨
        s.symbol? id = some symbol ∧ symbol.unit.path ≠ u.unit.path) := by
  by_cases inside : id ∈ selectedIds c u.symbols
  · obtain ⟨symbol, chosen, same, r', heldToo, reflects⟩ := mirrors.get_selected new inside
    rw [held] at heldToo
    cases heldToo
    exact ⟨symbol, reflects, .inl ⟨c.select_subset _ chosen, same⟩⟩
  · rw [mirrors.get_others new inside] at held
    split at held
    · cases held
    · rename_i unlisted
      obtain ⟨-, symbol, heldSymbol, different, reflects⟩ := h.elsewhere consistent held unlisted
      exact ⟨symbol, reflects, .inr ⟨heldSymbol, different⟩⟩

theorem NewVectors.sound (new : NewVectors s.vectors u vectors) (sound : s.vectors.Sound) :
    vectors.Sound := by
  intro id r held
  rw [new.dimension]
  rcases new.get id with ⟨w, written, same, heldToo⟩ | ⟨-, kept⟩
  · rw [held] at heldToo
    cases heldToo
    exact ⟨same, new.valid r written⟩
  · rw [held] at kept
    split at kept
    · cases kept
    · exact sound id r kept.symm

/-- A commit that knows what changed keeps the vectors true to the symbols. -/
theorem Mirroring.replaceUnit (h : Mirroring c vec s) (consistent : s.Consistent) (fits : Fits s u)
    (mirrors : Mirrors c vec s u) (new : NewVectors s.vectors u vectors) :
    Mirroring c vec (({ s with vectors } : IndexState).replaceUnit u) := by
  have base : ({ s with vectors } : IndexState).Consistent := consistent.withVectors vectors
  have fitsBase : Fits { s with vectors } u := fits.withVectors vectors
  have embedded (path : String) :
      (({ s with vectors } : IndexState).replaceUnit u).embeddedOf path =
        if path = u.unit.path then
          IdSet.union (u.deletes.foldl IdSet.erase (s.embeddedOf u.unit.path)) (u.upserts.map (·.id))
        else s.embeddedOf path := embeddedOf_replaceUnit { s with vectors } u path
  have symbols (path : String) : (({ s with vectors } : IndexState).replaceUnit u).symbolsOf path =
      if path = u.unit.path then u.symbols else s.symbolsOf path :=
    symbolsOf_replaceUnit base fitsBase path
  have written : (({ s with vectors } : IndexState).replaceUnit u).vectors = vectors :=
    replaceUnit_vectors _ u
  refine ⟨⟨?ascending, ?selected, ?covered, ?fresh⟩, ?sound, ?steady⟩
  case ascending =>
    intro path
    rw [embedded]
    split
    · exact IdSet.union_ascending (IdSet.eraseAll_ascending (h.ascending _) _) _
    · exact h.ascending path
  case selected =>
    intro path id
    rw [embedded, symbols]
    split
    · exact mirrors.mem_embedded
    · exact h.selected path id
  case covered =>
    intro id
    rw [written, mirrors.covered new h.toMirrored consistent]
    constructor
    · rintro (inside | ⟨path, different, listed⟩)
      · refine ⟨u.unit.path, ?_⟩
        rw [embedded, if_pos rfl]
        exact mirrors.mem_embedded.mpr inside
      · refine ⟨path, ?_⟩
        rw [embedded, if_neg different]
        exact listed
    · rintro ⟨path, listed⟩
      rw [embedded] at listed
      split at listed
      · exact .inl (mirrors.mem_embedded.mp listed)
      · rename_i different
        exact .inr ⟨path, different, listed⟩
  case fresh =>
    intro id r held
    rw [written] at held
    obtain ⟨symbol, reflects, place⟩ := mirrors.fresh new h.toMirrored consistent held
    exact ⟨symbol, (symbol?_replaceUnit base fitsBase id symbol).mpr place, reflects⟩
  case sound => exact written.symm ▸ new.sound h.sound
  case steady => exact written.symm ▸ new.steady

end

/-! ## Everything else that is done to an index -/

theorem SameVectors.sound {before after : VectorIndex} (same : SameVectors before after)
    (sound : before.Sound) : after.Sound := by
  intro id r held
  rw [same.dimension]
  exact sound id r ((same.get id).symm.trans held)

theorem Mirroring.withVectors (h : Mirroring c vec s) {vectors : VectorIndex}
    (same : SameVectors s.vectors vectors) : Mirroring c vec { s with vectors } := by
  refine ⟨⟨?ascending, ?selected, ?covered, ?fresh⟩, ?sound, ?steady⟩
  case ascending => exact h.ascending
  case selected => exact h.selected
  case covered =>
    intro id
    have held : (∃ r, vectors.get? id = some r) ↔ ∃ r, s.vectors.get? id = some r := by
      rw [same.get id]
    exact held.trans (h.covered id)
  case fresh => exact fun id r held => h.fresh id r ((same.get id).symm.trans held)
  case sound => exact same.sound h.sound
  case steady => exact same.steady

theorem Mirroring.withFeedback (h : Mirroring c vec s) (feedback : FeedbackStore) :
    Mirroring c vec { s with feedback } :=
  ⟨⟨h.ascending, h.selected, h.covered, h.fresh⟩, h.sound, h.steady⟩

theorem embeddedOf_removeUnit (s : IndexState) (path other : String) :
    (s.removeUnit path).2.embeddedOf other = if other = path then [] else s.embeddedOf other := by
  rw [embeddedOf, unit?_removeUnit]
  split
  · rfl
  · rfl

theorem removeUnit_vectors (s : IndexState) (path : String) :
    (s.removeUnit path).2.vectors = s.vectors.dropAll (s.embeddedOf path) := by
  have dropped : s.vectorsWithout path = s.vectors.dropAll (s.embeddedOf path) :=
    s.vectors.deleteAll_eq _
  cases held : s.unit? path with
  | none =>
      rw [removeUnit_absent held, embeddedOf, held]
      rfl
  | some entry =>
      rw [removeUnit_held held, ← dropped]
      exact (forgetAll_elsewhere _ _).vectors

theorem removeUnit_lasting {P : VectorStore → Prop} (lasting : VectorIndex.Lasting P)
    (h : P s.vectors.store) (path : String) : P (s.removeUnit path).2.vectors.store := by
  rw [removeUnit_vectors]
  exact lasting.dropAll h _

theorem removeUnit_sound (sound : s.vectors.Sound) (path : String) :
    (s.removeUnit path).2.vectors.Sound := by
  intro id r held
  rw [removeUnit_vectors, VectorIndex.get?_dropAll] at held
  rw [removeUnit_vectors, VectorIndex.dimension_dropAll]
  split at held
  · cases held
  · exact sound id r held

theorem removeUnit_steady (steady : s.vectors.store.Steady) (path : String) :
    (s.removeUnit path).2.vectors.store.Steady := by
  rw [removeUnit_vectors]
  exact VectorIndex.steady_dropAll steady _

/-- Dropping a file keeps the vectors true to the symbols. -/
theorem Mirroring.removeUnit (h : Mirroring c vec s) (consistent : s.Consistent) (path : String) :
    Mirroring c vec (s.removeUnit path).2 := by
  have get (id : SymbolId) : (s.removeUnit path).2.vectors.get? id =
      if id ∈ s.embeddedOf path then none else s.vectors.get? id := by
    rw [removeUnit_vectors, VectorIndex.get?_dropAll]
  refine ⟨⟨?ascending, ?selected, ?covered, ?fresh⟩, ?sound, ?steady⟩
  case ascending =>
    intro other
    rw [embeddedOf_removeUnit]
    split
    · exact List.Pairwise.nil
    · exact h.ascending other
  case selected =>
    intro other id
    rw [embeddedOf_removeUnit, symbolsOf_removeUnit consistent]
    split
    · refine ⟨fun listed => absurd listed List.not_mem_nil, fun inside => ?_⟩
      obtain ⟨symbol, chosen, -⟩ := List.mem_map.mp inside
      exact absurd (c.select_subset _ chosen) List.not_mem_nil
    · exact h.selected other id
  case covered =>
    intro id
    rw [get]
    constructor
    · rintro ⟨r, held⟩
      split at held
      · cases held
      · rename_i unlisted
        obtain ⟨⟨other, different, listed⟩, -⟩ := h.elsewhere consistent held unlisted
        refine ⟨other, ?_⟩
        rw [embeddedOf_removeUnit, if_neg different]
        exact listed
    · rintro ⟨other, listed⟩
      rw [embeddedOf_removeUnit] at listed
      split at listed
      · cases listed
      · rename_i different
        rw [if_neg fun listedToo => different ((h.listed consistent).place_unique listed listedToo)]
        exact (h.covered id).mpr ⟨other, listed⟩
  case fresh =>
    intro id r held
    rw [get] at held
    split at held
    · cases held
    · rename_i unlisted
      obtain ⟨-, symbol, heldSymbol, different, reflects⟩ := h.elsewhere consistent held unlisted
      refine ⟨symbol, (symbol?_removeUnit consistent path id symbol).mpr ?_, reflects⟩
      exact ⟨heldSymbol, different⟩
  case sound => exact removeUnit_sound h.sound path
  case steady => exact removeUnit_steady h.steady path

/-- Where files list nothing but symbols of theirs, pruning leaves them alone. -/
theorem Listed.unit?_pruneStale (h : s.Listed) (consistent : s.Consistent) (path : String) :
    s.pruneStale.2.unit? path = s.unit? path := by
  rw [IndexState.unit?_pruneStale consistent]
  cases held : s.unit? path with
  | none => rfl
  | some entry =>
      have embedded : entry.embedded.filter (Keyed.has s.symbols) = entry.embedded := by
        refine List.filter_eq_self.mpr fun id inside => ?_
        have listed : id ∈ s.embeddedOf path := by
          rw [embeddedOf, held]
          exact inside
        obtain ⟨symbol, heldSymbol, -⟩ := h path id listed
        exact Keyed.has_iff.mpr ⟨symbol, heldSymbol⟩
      have same : s.keepHeld entry = entry := by
        rw [keepHeld, embedded, show entry.symbolIds.filter (Keyed.has s.symbols) = entry.symbolIds
          from consistent.keepHeld_symbolIds held]
      rw [Option.map_some, same]

theorem Listed.embeddedOf_pruneStale (h : s.Listed) (consistent : s.Consistent) (path : String) :
    s.pruneStale.2.embeddedOf path = s.embeddedOf path := by
  rw [embeddedOf, h.unit?_pruneStale consistent, embeddedOf]

/-- Pruning keeps the vectors true to the symbols. -/
theorem Mirroring.pruneStale (h : Mirroring c vec s) (consistent : s.Consistent) :
    Mirroring c vec s.pruneStale.2 := by
  have vectors := consistent.vectors_pruneStale
  have embedded (path : String) : s.pruneStale.2.embeddedOf path = s.embeddedOf path :=
    (h.listed consistent).embeddedOf_pruneStale consistent path
  refine ⟨⟨?ascending, ?selected, ?covered, ?fresh⟩, ?sound, ?steady⟩
  case ascending => exact fun path => (embedded path).symm ▸ h.ascending path
  case selected =>
    intro path id
    rw [embedded, symbolsOf_pruneStale consistent]
    exact h.selected path id
  case covered =>
    intro id
    rw [vectors, h.covered id]
    exact exists_congr fun path => by rw [embedded]
  case fresh =>
    intro id r held
    rw [vectors] at held
    rw [symbol?_pruneStale consistent]
    exact h.fresh id r held
  case sound => exact vectors.symm ▸ h.sound
  case steady => exact vectors.symm ▸ h.steady

/-- An index without files and records has nothing to mirror. -/
theorem Mirroring.empty {vectors : VectorIndex} (none : ∀ id, vectors.get? id = none)
    (steady : vectors.store.Steady) : Mirroring c vec { vectors } := by
  have absent (id : SymbolId) (r : Record) : vectors.get? id ≠ some r := by
    rw [none id]
    exact Option.some_ne_none r ∘ Eq.symm
  refine ⟨⟨?ascending, ?selected, ?covered, ?fresh⟩, ?sound, ?steady⟩
  case ascending => exact fun path => List.Pairwise.nil
  case selected =>
    refine fun path id => ⟨fun listed => absurd listed List.not_mem_nil, fun inside => ?_⟩
    obtain ⟨symbol, chosen, -⟩ := List.mem_map.mp inside
    exact absurd (c.select_subset _ chosen) List.not_mem_nil
  case covered =>
    intro id
    constructor
    · rintro ⟨r, held⟩
      exact absurd held (absent id r)
    · rintro ⟨path, listed⟩
      exact absurd listed List.not_mem_nil
  case fresh => exact fun id r held => absurd held (absent id r)
  case sound => exact fun id r held => absurd held (absent id r)
  case steady => exact steady

end CodeSearch.IndexState
