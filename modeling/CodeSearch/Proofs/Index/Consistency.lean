import CodeSearch.Proofs.Index.Names

/-! # A consistent index

The files, their symbols, the names and the paths touched last tell of each other what is true.
Replacing a file, dropping one and pruning keep it so; what a commit needs for it is that the new
symbols have ids that no other file has.
-/

namespace CodeSearch.IndexState

/-- What the parts of an index tell of each other. -/
structure Consistent (s : IndexState) : Prop extends Named s where
  unitKeys : (Keyed.keys s.units).Nodup
  /-- A file is held under its own path. -/
  ownPath : ∀ path entry, s.unit? path = some entry → entry.unit.path = path
  distinct : ∀ path entry, s.unit? path = some entry → entry.symbolIds.Nodup
  /-- What a file lists is held, and belongs to the version that is held. -/
  listed : ∀ path entry, s.unit? path = some entry → ∀ id ∈ entry.symbolIds,
    ∃ symbol, s.symbol? id = some symbol ∧ symbol.unit = ⟨path, entry.unit.version⟩
  /-- What is held is listed by one file. -/
  held : ∀ id symbol, s.symbol? id = some symbol →
    ∃! path, ∃ entry, s.unit? path = some entry ∧ id ∈ entry.symbolIds
  recentDistinct : s.recentPaths.Nodup
  recentFew : s.recentPaths.length ≤ recentCapacity
  recentHeld : ∀ path ∈ s.recentPaths, ∃ entry, s.unit? path = some entry

theorem empty_consistent (vectors : VectorIndex) : Consistent { vectors } := by
  have noUnit (path : String) (entry : UnitEntry) :
      ({ vectors } : IndexState).unit? path ≠ some entry := Option.some_ne_none entry ∘ Eq.symm
  have noSymbol (id : SymbolId) (symbol : Symbol) :
      ({ vectors } : IndexState).symbol? id ≠ some symbol := Option.some_ne_none symbol ∘ Eq.symm
  constructor
  case toNamed =>
    refine ⟨List.nodup_nil, fun id symbol h => absurd h (noSymbol id symbol),
      ⟨List.nodup_nil, fun key ids h => (Option.some_ne_none ids h.symm).elim,
        fun key ids h => (Option.some_ne_none ids h.symm).elim⟩, fun key id => ?_⟩
    constructor
    · intro inside
      cases inside
    · rintro ⟨symbol, h, -⟩
      exact absurd h (noSymbol id symbol)
  case unitKeys => exact List.nodup_nil
  case ownPath => exact fun path entry h => absurd h (noUnit path entry)
  case distinct => exact fun path entry h => absurd h (noUnit path entry)
  case listed => exact fun path entry h => absurd h (noUnit path entry)
  case held => exact fun id symbol h => absurd h (noSymbol id symbol)
  case recentDistinct => exact List.nodup_nil
  case recentFew => exact Nat.zero_le _
  case recentHeld => exact fun path h => absurd h List.not_mem_nil

/-! ## What consistency gives -/

section

variable {s : IndexState}

/-- The ids that a path lists. -/
def idsOf (s : IndexState) (path : String) : List SymbolId :=
  (s.unit? path).elim [] (·.symbolIds)

theorem idsOf_held {path : String} {entry : UnitEntry} (h : s.unit? path = some entry) :
    s.idsOf path = entry.symbolIds := by
  rw [idsOf, h, Option.elim_some]

theorem Consistent.home (h : Consistent s) {id : SymbolId} {symbol : Symbol}
    (held : s.symbol? id = some symbol) :
    ∃ entry, s.unit? symbol.unit.path = some entry ∧ id ∈ entry.symbolIds ∧
      symbol.unit.version = entry.unit.version := by
  obtain ⟨path, ⟨entry, heldUnit, inside⟩, -⟩ := h.held id symbol held
  obtain ⟨same, heldToo, unit⟩ := h.listed path entry heldUnit id inside
  rw [held] at heldToo
  cases heldToo
  have place : symbol.unit.path = path := congrArg UnitRef.path unit
  exact ⟨entry, place ▸ heldUnit, inside, congrArg UnitRef.version unit⟩

theorem Consistent.mem_idsOf (h : Consistent s) {path : String} {id : SymbolId} :
    id ∈ s.idsOf path ↔ ∃ symbol, s.symbol? id = some symbol ∧ symbol.unit.path = path := by
  constructor
  · intro inside
    cases heldUnit : s.unit? path with
    | none =>
        rw [idsOf, heldUnit] at inside
        cases inside
    | some entry =>
        rw [idsOf_held heldUnit] at inside
        obtain ⟨symbol, held, unit⟩ := h.listed path entry heldUnit id inside
        exact ⟨symbol, held, congrArg UnitRef.path unit⟩
  · rintro ⟨symbol, held, rfl⟩
    obtain ⟨entry, heldUnit, inside, -⟩ := h.home held
    exact idsOf_held heldUnit ▸ inside

theorem Consistent.mem_allSymbols (h : Consistent s) {symbol : Symbol} :
    symbol ∈ s.allSymbols ↔ s.symbol? symbol.id = some symbol := by
  refine (Keyed.mem_values h.symbolKeys).trans ⟨?_, fun held => ⟨symbol.id, held⟩⟩
  rintro ⟨id, held⟩
  exact (h.ownId id symbol held).symm ▸ held

theorem Consistent.accepts (h : Consistent s) {symbol : Symbol} (held : symbol ∈ s.allSymbols) :
    s.check symbol = .ok () := by
  obtain ⟨id, heldHere⟩ := (Keyed.mem_values h.symbolKeys).mp held
  obtain ⟨entry, heldUnit, -, version⟩ := h.home heldHere
  rw [check, heldUnit, version]
  exact if_pos rfl

theorem Consistent.current (h : Consistent s) {symbol : Symbol} (held : symbol ∈ s.allSymbols) :
    s.isCurrent symbol = true := by
  obtain ⟨id, heldHere⟩ := (Keyed.mem_values h.symbolKeys).mp held
  obtain ⟨entry, heldUnit, -, version⟩ := h.home heldHere
  rw [isCurrent, heldUnit, version, Option.any_some, beq_self_eq_true]

theorem Consistent.mem_symbolsOf (h : Consistent s) {path : String} {symbol : Symbol} :
    symbol ∈ s.symbolsOf path ↔ s.symbol? symbol.id = some symbol ∧ symbol.unit.path = path := by
  have listed : symbol ∈ s.symbolsOf path ↔
      ∃ id ∈ s.idsOf path, s.symbol? id = some symbol := by
    unfold symbolsOf idsOf
    cases s.unit? path with
    | none => simp
    | some entry => exact List.mem_filterMap
  rw [listed]
  constructor
  · rintro ⟨id, inside, held⟩
    obtain ⟨same, heldToo, place⟩ := h.mem_idsOf.mp inside
    rw [held] at heldToo
    cases heldToo
    exact ⟨(h.ownId id symbol held).symm ▸ held, place⟩
  · rintro ⟨held, place⟩
    exact ⟨symbol.id, h.mem_idsOf.mpr ⟨symbol, held, place⟩, held⟩

theorem Consistent.symbolsOf_ids (h : Consistent s) (path : String) :
    (s.symbolsOf path).map (·.id) = s.idsOf path := by
  unfold symbolsOf idsOf
  cases heldUnit : s.unit? path with
  | none => rfl
  | some entry =>
      have each : ∀ id ∈ entry.symbolIds, (s.symbol? id).map (·.id) = some id := by
        intro id inside
        obtain ⟨symbol, held, -⟩ := h.listed path entry heldUnit id inside
        rw [held, Option.map_some, h.ownId id symbol held]
      calc
        (entry.symbolIds.filterMap s.symbol?).map (·.id)
          = entry.symbolIds.filterMap fun id => (s.symbol? id).map (·.id) := List.map_filterMap
        _ = entry.symbolIds.filterMap some := List.filterMap_congr each
        _ = entry.symbolIds := List.filterMap_some

theorem Consistent.symbolsOf_nodup (h : Consistent s) (path : String) :
    ((s.symbolsOf path).map (·.id)).Nodup := by
  rw [h.symbolsOf_ids]
  unfold idsOf
  cases heldUnit : s.unit? path with
  | none => exact List.nodup_nil
  | some entry => exact h.distinct path entry heldUnit

end

end CodeSearch.IndexState
