import CodeSearch.Proofs.Index.Vectors

/-! # Pruning

Pruning drops the symbols that are not of the version that is held of their file, and then all that
refers to symbols that are not held. For this the index need not be consistent: it is enough that
its names tell of its symbols. What pruning leaves it leaves alone the next time. A consistent index
has nothing to drop.
-/

namespace CodeSearch.IndexState

variable {s : IndexState}

/-! ## Stale symbols -/

theorem check_ok_iff {symbol : Symbol} : s.check symbol = .ok () ↔ s.isCurrent symbol = true := by
  unfold check isCurrent
  cases s.unit? symbol.unit.path with
  | none => simp
  | some entry => simp

/-- The ids of the symbols that are not of the version that is held of their file. -/
def staleIds (s : IndexState) : List SymbolId :=
  (s.allSymbols.filter fun symbol => !s.isCurrent symbol).map (·.id)

theorem Named.mem_staleIds (h : Named s) {id : SymbolId} :
    id ∈ s.staleIds ↔ ∃ symbol, s.symbol? id = some symbol ∧ s.isCurrent symbol = false := by
  simp only [staleIds, List.mem_map, List.mem_filter, Bool.not_eq_true']
  constructor
  · rintro ⟨symbol, ⟨inside, stale⟩, rfl⟩
    obtain ⟨id, held⟩ := (Keyed.mem_values h.symbolKeys).mp inside
    exact ⟨symbol, (h.ownId id symbol held).symm ▸ held, stale⟩
  · rintro ⟨symbol, held, stale⟩
    have inside : symbol ∈ s.allSymbols := (Keyed.mem_values h.symbolKeys).mpr ⟨id, held⟩
    exact ⟨symbol, ⟨inside, stale⟩, h.ownId id symbol held⟩

theorem Named.stale_iff (h : Named s) {id : SymbolId} {symbol : Symbol}
    (held : s.symbol? id = some symbol) : id ∈ s.staleIds ↔ s.isCurrent symbol = false := by
  simp only [h.mem_staleIds, held, Option.some.injEq, exists_eq_left']

theorem staleIds_eq_nil : s.staleIds = [] ↔ ∀ symbol ∈ s.allSymbols, s.isCurrent symbol = true := by
  simp [staleIds, List.filter_eq_nil_iff]

/-! ## Sweeping stale symbols out -/

/-- The index without its stale symbols and their vectors. -/
def swept (s : IndexState) : IndexState :=
  s.staleIds.foldl forgetSymbol { s with vectors := (s.vectors.deleteAll s.staleIds).2 }

theorem swept_elsewhere (s : IndexState) :
    SameElsewhere s.swept { s with vectors := s.vectors.dropAll s.staleIds } := by
  rw [← s.vectors.deleteAll_eq]
  exact forgetAll_elsewhere _ _

theorem Named.swept (h : Named s) : Named s.swept :=
  have named : Named { s with vectors := (s.vectors.deleteAll s.staleIds).2 } :=
    ⟨h.symbolKeys, h.ownId, h.table, h.found⟩
  named.forgetAll s.staleIds

theorem Named.symbol?_swept (h : Named s) (id : SymbolId) (symbol : Symbol) :
    s.swept.symbol? id = some symbol ↔
      s.symbol? id = some symbol ∧ s.isCurrent symbol = true := by
  rw [IndexState.swept, symbol?_forgetAll]
  constructor
  · intro held
    split at held
    · cases held
    · rename_i fresh
      rw [h.stale_iff held, Bool.not_eq_false] at fresh
      exact ⟨held, fresh⟩
  · rintro ⟨held, current⟩
    have fresh : id ∉ s.staleIds := by rw [h.stale_iff held, Bool.not_eq_false, current]
    rw [if_neg fresh]
    exact held

theorem unit?_swept (s : IndexState) (path : String) : s.swept.unit? path = s.unit? path :=
  congrArg (Keyed.get? · path) (swept_elsewhere s).units

theorem isCurrent_swept (s : IndexState) (symbol : Symbol) :
    s.swept.isCurrent symbol = s.isCurrent symbol := by
  rw [isCurrent, unit?_swept, isCurrent]

theorem Named.staleIds_swept (h : Named s) : s.swept.staleIds = [] := by
  refine staleIds_eq_nil.mpr fun symbol inside => ?_
  obtain ⟨id, held⟩ := (Keyed.mem_values h.swept.symbolKeys).mp inside
  exact (isCurrent_swept s symbol).trans ((h.symbol?_swept id symbol).mp held).2

theorem swept_eq_self (fresh : s.staleIds = []) : s.swept = s := by
  rw [swept, fresh]
  rfl

/-! ## Entries and feedback of held symbols only -/

/-- What pruning leaves of an entry. -/
def keepHeld (s : IndexState) (entry : UnitEntry) : UnitEntry :=
  { entry with
    symbolIds := entry.symbolIds.filter (Keyed.has s.symbols)
    embedded := entry.embedded.filter (Keyed.has s.symbols) }

/-- The index whose entries and feedback are of held symbols only. -/
def tidied (s : IndexState) : IndexState :=
  { s with
    units := s.units.map fun e => (e.1, s.keepHeld e.2)
    feedback := (s.feedback.retain (Keyed.has s.symbols)).2 }

theorem pruneStale_eq_tidied (s : IndexState) :
    s.pruneStale = (s.staleIds.length, s.swept.tidied) := rfl

theorem unit?_tidied (s : IndexState) (path : String) :
    s.tidied.unit? path = (s.unit? path).map s.keepHeld :=
  Keyed.get?_map s.units s.keepHeld path

theorem isCurrent_tidied (s : IndexState) (symbol : Symbol) :
    s.tidied.isCurrent symbol = s.isCurrent symbol := by
  rw [isCurrent, unit?_tidied, Option.any_map]
  rfl

theorem staleIds_tidied (s : IndexState) : s.tidied.staleIds = s.staleIds := by
  simp only [staleIds, isCurrent_tidied]
  rfl

theorem keepHeld_keepHeld (s : IndexState) (entry : UnitEntry) :
    s.keepHeld (s.keepHeld entry) = s.keepHeld entry := by
  simp only [keepHeld, List.filter_filter, Bool.and_self]

theorem Named.tidied (h : Named s) : Named s.tidied :=
  ⟨h.symbolKeys, h.ownId, h.table, h.found⟩

/-- Tidying twice is tidying once. -/
theorem tidied_tidied (s : IndexState) : s.tidied.tidied = s.tidied := by
  have units : (s.units.map fun e => (e.1, s.keepHeld e.2)).map (fun e => (e.1, s.keepHeld e.2)) =
      s.units.map fun e => (e.1, s.keepHeld e.2) := by
    simp only [List.map_map, Function.comp_def, keepHeld_keepHeld]
  have counts : ((s.feedback.retain (Keyed.has s.symbols)).2.retain (Keyed.has s.symbols)).2 =
      (s.feedback.retain (Keyed.has s.symbols)).2 := by
    simp only [FeedbackStore.retain, List.filter_filter, Bool.and_self]
  calc
    s.tidied.tidied
      = { s with
          units := (s.units.map fun e => (e.1, s.keepHeld e.2)).map fun e => (e.1, s.keepHeld e.2)
          feedback := ((s.feedback.retain (Keyed.has s.symbols)).2.retain
            (Keyed.has s.symbols)).2 } := rfl
    _ = s.tidied := by rw [units, counts]; rfl

/-! ## Repair -/

/-- What is left of an index after pruning. -/
structure Pruned (s t : IndexState) : Prop where
  /-- The symbols of the held versions, and no others. -/
  symbols : ∀ id symbol, t.symbol? id = some symbol ↔
    s.symbol? id = some symbol ∧ s.check symbol = .ok ()
  checked : ∀ id symbol, t.symbol? id = some symbol → t.check symbol = .ok ()
  /-- No name is left by which nothing is found. -/
  named : Named t
  /-- An entry loses the ids that are not held, and nothing else. -/
  units : ∀ path, t.unit? path = (s.unit? path).map t.keepHeld
  listed : ∀ path entry, t.unit? path = some entry →
    ∀ id, id ∈ entry.symbolIds ∨ id ∈ entry.embedded → ∃ symbol, t.symbol? id = some symbol
  /-- Feedback stays as it was on the held symbols, and there is no other. -/
  feedback : ∀ id, Keyed.get? t.feedback.counts id =
    if (t.symbol? id).isSome then Keyed.get? s.feedback.counts id else none
  /-- A symbol that is dropped has no vector. -/
  cleared : ∀ id symbol, s.symbol? id = some symbol → t.symbol? id = none →
    t.vectors.get? id = none
  vectors : ∀ id symbol, t.symbol? id = some symbol → t.vectors.get? id = s.vectors.get? id
  again : t.pruneStale = (0, t)

theorem mem_keepHeld {entry : UnitEntry} {id : SymbolId}
    (inside : id ∈ (s.keepHeld entry).symbolIds ∨ id ∈ (s.keepHeld entry).embedded) :
    ∃ symbol, s.symbol? id = some symbol :=
  Keyed.has_iff.mp (inside.elim List.of_mem_filter List.of_mem_filter)

theorem vectors_pruneStale (s : IndexState) (id : SymbolId) :
    s.pruneStale.2.vectors.get? id = if id ∈ s.staleIds then none else s.vectors.get? id := by
  have vectors : s.pruneStale.2.vectors = s.vectors.dropAll s.staleIds :=
    (swept_elsewhere s).vectors
  rw [vectors, VectorIndex.get?_dropAll]

/-- Pruning repairs an index whose names tell of its symbols, which stand under their own ids
    wherever they were added, whatever its symbols, entries, vectors and feedback tell of each
    other. -/
theorem prune_repairs (named : Named s) : Pruned s s.pruneStale.2 := by
  rw [pruneStale_eq_tidied]
  have feedback : s.swept.feedback = s.feedback := (swept_elsewhere s).feedback
  have kept (id : SymbolId) (symbol : Symbol) : s.swept.tidied.symbol? id = some symbol ↔
      s.symbol? id = some symbol ∧ s.isCurrent symbol = true := named.symbol?_swept id symbol
  have current (symbol : Symbol) : s.swept.tidied.isCurrent symbol = s.isCurrent symbol :=
    (isCurrent_tidied _ _).trans (isCurrent_swept s symbol)
  constructor
  case symbols =>
    intro id symbol
    rw [kept, check_ok_iff]
  case checked =>
    intro id symbol held
    rw [check_ok_iff, current]
    exact ((kept id symbol).mp held).2
  case named => exact named.swept.tidied
  case units =>
    intro path
    rw [unit?_tidied, unit?_swept]
    rfl
  case listed =>
    intro path entry held id inside
    rw [unit?_tidied, Option.map_eq_some_iff] at held
    obtain ⟨before, -, rfl⟩ := held
    exact mem_keepHeld (s := s.swept) inside
  case feedback =>
    intro id
    rw [← feedback]
    exact Keyed.get?_filter_keys s.swept.feedback.counts (Keyed.has s.swept.symbols) id
  case cleared =>
    intro id symbol held dropped
    have stale : id ∈ s.staleIds := by
      rw [named.stale_iff held, ← Bool.not_eq_true]
      intro fresh
      rw [(kept id symbol).mpr ⟨held, fresh⟩] at dropped
      cases dropped
    exact (vectors_pruneStale s id).trans (if_pos stale)
  case vectors =>
    intro id symbol held
    obtain ⟨heldBefore, fresh⟩ := (kept id symbol).mp held
    rw [← Bool.not_eq_false, ← named.stale_iff heldBefore] at fresh
    exact (vectors_pruneStale s id).trans (if_neg fresh)
  case again =>
    -- nothing is stale any more, and tidying again does nothing
    have fresh : s.swept.tidied.staleIds = [] := (staleIds_tidied _).trans named.staleIds_swept
    rw [pruneStale_eq_tidied, swept_eq_self fresh, fresh, tidied_tidied]
    rfl

/-- A function of one version of a file. -/
def functionAt (version : Nat) (id name : String) : Symbol :=
  { (default : Symbol) with
    id, name, qualifiedName := name, kind := .function, unit := ⟨"a.py", version⟩ }

/-- An index that still holds a function of an older version, under a name that a newer one has too,
    and feedback on a symbol that it does not hold. -/
def leftBehind : IndexState :=
  let record (id : SymbolId) : Record := ⟨id, [1], (functionAt 2 id "Open").metadata⟩
  let vectors : VectorIndex := { store := .exact ⟨1, [("new", record "new"), ("old", record "old")]⟩ }
  let symbols := (({ vectors } : IndexState).addSymbol (functionAt 2 "new" "Open")).addSymbol
    (functionAt 1 "old" "open")
  { symbols with
    units := [("a.py", { unit := { (default : SourceUnit) with path := "a.py", version := 2 }
                         symbolIds := ["new", "old"], embedded := ["new", "old"] })]
    feedback := ⟨[("old", { accepts := 1 }), ("gone", { rejects := 1 }), ("new", { clicks := 1 })]⟩ }

theorem leftBehind_repaired :
    Named leftBehind ∧ leftBehind.symbol? "old" = some (functionAt 1 "old" "open") ∧
      leftBehind.pruneStale.1 = 1 ∧ Pruned leftBehind leftBehind.pruneStale.2 := by
  have named : Named leftBehind := by
    have symbols : Named ([functionAt 2 "new" "Open", functionAt 1 "old" "open"].foldl addSymbol
        { vectors := leftBehind.vectors }) :=
      (empty_consistent _).toNamed.addAll (by decide) fun _ _ => rfl
    exact ⟨symbols.symbolKeys, symbols.ownId, symbols.table, symbols.found⟩
  exact ⟨named, rfl, by decide +kernel, prune_repairs named⟩

/-! ## Consistent indexes -/

/-- A consistent index has nothing stale, so that pruning drops no symbol. -/
theorem pruneStale_eq (h : Consistent s) : s.pruneStale = (0, s.tidied) := by
  have fresh : s.staleIds = [] := staleIds_eq_nil.mpr fun _ inside => h.current inside
  rw [pruneStale_eq_tidied, swept_eq_self fresh, fresh]
  rfl

theorem unit?_pruneStale (h : Consistent s) (path : String) :
    s.pruneStale.2.unit? path = (s.unit? path).map s.keepHeld := by
  rw [pruneStale_eq h]
  exact unit?_tidied s path

theorem symbol?_pruneStale (h : Consistent s) (id : SymbolId) :
    s.pruneStale.2.symbol? id = s.symbol? id := by
  rw [pruneStale_eq h]
  rfl

theorem Consistent.vectors_pruneStale (h : Consistent s) :
    s.pruneStale.2.vectors = s.vectors := by
  rw [pruneStale_eq h]
  rfl

theorem Consistent.keepHeld_symbolIds (h : Consistent s) {path : String} {entry : UnitEntry}
    (held : s.unit? path = some entry) : (s.keepHeld entry).symbolIds = entry.symbolIds := by
  refine List.filter_eq_self.mpr fun id inside => ?_
  obtain ⟨symbol, heldSymbol, -⟩ := h.listed path entry held id inside
  exact Keyed.has_iff.mpr ⟨symbol, heldSymbol⟩

theorem symbolsOf_pruneStale (h : Consistent s) (path : String) :
    s.pruneStale.2.symbolsOf path = s.symbolsOf path := by
  unfold symbolsOf
  rw [unit?_pruneStale h]
  cases held : s.unit? path with
  | none => rfl
  | some entry =>
      simp only [Option.map_some, h.keepHeld_symbolIds held, funext (symbol?_pruneStale h)]

/-- Pruning keeps an index consistent. -/
theorem Consistent.pruneStale (h : Consistent s) : Consistent s.pruneStale.2 := by
  have units {path : String} {entry : UnitEntry} (held : s.pruneStale.2.unit? path = some entry) :
      ∃ before, s.unit? path = some before ∧ entry.unit = before.unit ∧
        entry.symbolIds = before.symbolIds := by
    rw [unit?_pruneStale h, Option.map_eq_some_iff] at held
    obtain ⟨before, heldBefore, rfl⟩ := held
    exact ⟨before, heldBefore, rfl, h.keepHeld_symbolIds heldBefore⟩
  have after {path : String} {before : UnitEntry} (held : s.unit? path = some before) :
      s.pruneStale.2.unit? path = some (s.keepHeld before) := by
    rw [unit?_pruneStale h, held, Option.map_some]
  have recent : s.pruneStale.2.recentPaths = s.recentPaths := by
    rw [pruneStale_eq h]
    rfl
  constructor
  case toNamed =>
    rw [pruneStale_eq h]
    exact h.toNamed.tidied
  case unitKeys =>
    have keys : Keyed.keys s.pruneStale.2.units = Keyed.keys s.units := by
      simp only [pruneStale_eq h, tidied, Keyed.keys, List.map_map]
      rfl
    exact keys ▸ h.unitKeys
  case ownPath =>
    intro path entry held
    obtain ⟨before, heldBefore, unit, -⟩ := units held
    exact unit ▸ h.ownPath path before heldBefore
  case distinct =>
    intro path entry held
    obtain ⟨before, heldBefore, -, ids⟩ := units held
    exact ids ▸ h.distinct path before heldBefore
  case listed =>
    intro path entry held id inside
    obtain ⟨before, heldBefore, unit, ids⟩ := units held
    rw [symbol?_pruneStale h, unit]
    exact h.listed path before heldBefore id (ids ▸ inside)
  case held =>
    intro id symbol held
    rw [symbol?_pruneStale h] at held
    obtain ⟨path, ⟨before, heldBefore, inside⟩, one⟩ := h.held id symbol held
    refine ⟨path, ⟨s.keepHeld before, after heldBefore, ?_⟩, ?_⟩
    · exact (h.keepHeld_symbolIds heldBefore).symm ▸ inside
    · rintro other ⟨entry, heldAfter, insideToo⟩
      obtain ⟨b, heldB, -, ids⟩ := units heldAfter
      exact one other ⟨b, heldB, ids ▸ insideToo⟩
  case recentDistinct => exact recent ▸ h.recentDistinct
  case recentFew => exact recent ▸ h.recentFew
  case recentHeld =>
    intro path inside
    obtain ⟨before, heldBefore⟩ := h.recentHeld path (recent ▸ inside)
    exact ⟨_, after heldBefore⟩

end CodeSearch.IndexState

namespace CodeSearch.VectorIndex

theorem Lasting.pruneStale {P : VectorStore → Prop} (lasting : Lasting P) {s : IndexState}
    (h : P s.vectors.store) : P s.pruneStale.2.vectors.store := by
  have vectors : s.pruneStale.2.vectors = s.vectors.dropAll s.staleIds := s.swept_elsewhere.vectors
  rw [vectors]
  exact lasting.dropAll h s.staleIds

end CodeSearch.VectorIndex
