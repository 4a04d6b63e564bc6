import CodeSearch.Proofs.Index.Consistency

/-! # Replacing and dropping files

What is held after a file is replaced or dropped: everything of the other files as it was, and of
the file itself what the new version brings, or nothing. An index stays consistent by it.
-/

namespace CodeSearch.IndexState

variable {s : IndexState}

/-! ## What forgetting and holding symbols leave alone -/

/-- Nothing but the symbols and the names differs. -/
structure SameElsewhere (a b : IndexState) : Prop where
  units : a.units = b.units
  vectors : a.vectors = b.vectors
  feedback : a.feedback = b.feedback
  recentPaths : a.recentPaths = b.recentPaths
  recentSymbols : a.recentSymbols = b.recentSymbols

theorem forgetAll_elsewhere (s : IndexState) (ids : List SymbolId) :
    SameElsewhere (ids.foldl IndexState.forgetSymbol s) s := by
  refine List.foldlRecOn (motive := (SameElsewhere · s)) ids _ ⟨rfl, rfl, rfl, rfl, rfl⟩
    fun before same id _ => ?_
  unfold IndexState.forgetSymbol
  split
  · exact same
  · exact ⟨same.units, same.vectors, same.feedback, same.recentPaths, same.recentSymbols⟩

theorem addAll_elsewhere (s : IndexState) (symbols : List Symbol) :
    SameElsewhere (symbols.foldl IndexState.addSymbol s) s :=
  List.foldlRecOn (motive := (SameElsewhere · s)) symbols _ ⟨rfl, rfl, rfl, rfl, rfl⟩
    fun _ same _ _ =>
      ⟨same.units, same.vectors, same.feedback, same.recentPaths, same.recentSymbols⟩

theorem Consistent.withVectors (h : Consistent s) (vectors : VectorIndex) :
    Consistent { s with vectors } :=
  ⟨⟨h.symbolKeys, h.ownId, h.table, h.found⟩, h.unitKeys, h.ownPath, h.distinct, h.listed, h.held,
    h.recentDistinct, h.recentFew, h.recentHeld⟩

theorem Consistent.withFeedback (h : Consistent s) (feedback : FeedbackStore) :
    Consistent { s with feedback } :=
  ⟨⟨h.symbolKeys, h.ownId, h.table, h.found⟩, h.unitKeys, h.ownPath, h.distinct, h.listed, h.held,
    h.recentDistinct, h.recentFew, h.recentHeld⟩

/-! ## Dropping the symbols of a file -/

/-- The index without a file and its symbols. -/
def without (s : IndexState) (path : String) : IndexState :=
  (s.idsOf path).foldl IndexState.forgetSymbol { s with units := Keyed.erase s.units path }

theorem without_units (s : IndexState) (path : String) :
    (s.without path).units = Keyed.erase s.units path :=
  (forgetAll_elsewhere _ _).units

theorem unit?_without (s : IndexState) (path other : String) :
    (s.without path).unit? other = if other = path then none else s.unit? other := by
  rw [unit?, without_units]
  exact Keyed.get?_erase s.units path other

theorem symbol?_without (h : Consistent s) (path : String) (id : SymbolId) (symbol : Symbol) :
    (s.without path).symbol? id = some symbol ↔
      s.symbol? id = some symbol ∧ symbol.unit.path ≠ path := by
  rw [without, symbol?_forgetAll]
  constructor
  · intro held
    split at held
    · cases held
    · rename_i unlisted
      exact ⟨held, fun place => unlisted (h.mem_idsOf.mpr ⟨symbol, held, place⟩)⟩
  · rintro ⟨held, place⟩
    split
    · rename_i inside
      obtain ⟨same, heldToo, placeToo⟩ := h.mem_idsOf.mp inside
      rw [held] at heldToo
      cases heldToo
      exact absurd placeToo place
    · exact held

theorem Consistent.without_named (h : Consistent s) (path : String) : Named (s.without path) := by
  have named : Named { s with units := Keyed.erase s.units path } :=
    ⟨h.symbolKeys, h.ownId, h.table, h.found⟩
  exact named.forgetAll (s.idsOf path)

/-! ## The paths touched last -/

theorem mem_pushRecent {recent : List String} {entry path : String}
    (h : path ∈ pushRecent recent entry) : path = entry ∨ path ∈ recent := by
  rcases List.mem_cons.mp (List.mem_of_mem_take h) with same | inside
  · exact .inl same
  · exact .inr (List.mem_of_mem_filter inside)

theorem pushRecent_nodup {recent : List String} (h : recent.Nodup) (entry : String) :
    (pushRecent recent entry).Nodup := by
  have distinct : (entry :: recent.filter (· ≠ entry)).Nodup := by
    refine List.nodup_cons.mpr ⟨fun inside => ?_, h.filter _⟩
    have different := List.of_mem_filter inside
    simp at different
  exact distinct.sublist (List.take_sublist _ _)

theorem pushRecent_length (recent : List String) (entry : String) :
    (pushRecent recent entry).length ≤ recentCapacity :=
  List.length_take_le _ _

/-! ## Replacing a file -/

/-- The entry of a new version. -/
def nextEntry (s : IndexState) (u : UnitUpdate) : UnitEntry :=
  { unit := u.unit, symbolIds := u.symbols.map (·.id)
    embedded := IdSet.union
      (u.deletes.foldl IdSet.erase ((s.unit? u.unit.path).elim [] (·.embedded)))
      (u.upserts.map (·.id)) }

theorem replaceUnit_eq (s : IndexState) (u : UnitUpdate) :
    s.replaceUnit u =
      let base := u.symbols.foldl IndexState.addSymbol (s.without u.unit.path)
      { base with
        units := Keyed.put base.units u.unit.path (s.nextEntry u)
        recentPaths := pushRecent base.recentPaths u.unit.path
        recentSymbols := u.changedNames.foldl pushRecent base.recentSymbols } := rfl

theorem replaceUnit_units (s : IndexState) (u : UnitUpdate) :
    (s.replaceUnit u).units =
      Keyed.put (Keyed.erase s.units u.unit.path) u.unit.path (s.nextEntry u) := by
  rw [replaceUnit_eq, ← without_units]
  exact congrArg (Keyed.put · u.unit.path (s.nextEntry u)) (addAll_elsewhere _ _).units

theorem replaceUnit_recentPaths (s : IndexState) (u : UnitUpdate) :
    (s.replaceUnit u).recentPaths = pushRecent s.recentPaths u.unit.path := by
  have before : (s.without u.unit.path).recentPaths = s.recentPaths :=
    (forgetAll_elsewhere _ _).recentPaths
  rw [replaceUnit_eq, ← before]
  exact congrArg (pushRecent · u.unit.path) (addAll_elsewhere _ _).recentPaths

theorem replaceUnit_vectors (s : IndexState) (u : UnitUpdate) :
    (s.replaceUnit u).vectors = s.vectors := by
  have before : (s.without u.unit.path).vectors = s.vectors := (forgetAll_elsewhere _ _).vectors
  rw [replaceUnit_eq, ← before]
  exact (addAll_elsewhere _ _).vectors

theorem unit?_replaceUnit (s : IndexState) (u : UnitUpdate) (path : String) :
    (s.replaceUnit u).unit? path =
      if path = u.unit.path then some (s.nextEntry u) else s.unit? path := by
  rw [unit?, replaceUnit_units, Keyed.get?_put]
  split
  · rfl
  · rename_i different
    exact Keyed.get?_erase_of_ne s.units different

/-- What a new version needs to take its place: symbols of that version, under ids that differ from
    each other and from those of all other files. -/
structure Fits (s : IndexState) (u : UnitUpdate) : Prop where
  ids : (u.symbols.map (·.id)).Nodup
  unit : ∀ symbol ∈ u.symbols, symbol.unit = ⟨u.unit.path, u.unit.version⟩
  apart : ∀ symbol ∈ u.symbols, ∀ held, s.symbol? symbol.id = some held →
    held.unit.path = u.unit.path

section

variable {u : UnitUpdate}

theorem Fits.absent (fits : Fits s u) (h : Consistent s) {symbol : Symbol}
    (inside : symbol ∈ u.symbols) : (s.without u.unit.path).symbol? symbol.id = none := by
  cases held : (s.without u.unit.path).symbol? symbol.id with
  | none => rfl
  | some other =>
      obtain ⟨heldBefore, place⟩ := (symbol?_without h _ _ _).mp held
      exact absurd (fits.apart symbol inside other heldBefore) place

theorem symbol?_replaceUnit (h : Consistent s) (fits : Fits s u) (id : SymbolId) (symbol : Symbol) :
    (s.replaceUnit u).symbol? id = some symbol ↔
      symbol ∈ u.symbols ∧ symbol.id = id ∨
        s.symbol? id = some symbol ∧ symbol.unit.path ≠ u.unit.path := by
  have base : (s.replaceUnit u).symbol? id =
      (u.symbols.foldl IndexState.addSymbol (s.without u.unit.path)).symbol? id := rfl
  rw [base, symbol?_addAll fits.ids, symbol?_without h]
  constructor
  · rintro (new | ⟨old, -⟩)
    · exact .inl new
    · exact .inr old
  · rintro (new | ⟨held, place⟩)
    · exact .inl new
    · refine .inr ⟨⟨held, place⟩, fun inside => ?_⟩
      obtain ⟨other, hOther, rfl⟩ := List.mem_map.mp inside
      exact place (fits.apart other hOther symbol held)

/-- Replacing a file keeps an index consistent. -/
theorem Consistent.replaceUnit (h : Consistent s) (fits : Fits s u) :
    Consistent (s.replaceUnit u) := by
  have named : Named (s.replaceUnit u) := by
    have all := (h.without_named u.unit.path).addAll fits.ids fun _ inside => fits.absent h inside
    exact ⟨all.symbolKeys, all.ownId, all.table, all.found⟩
  have listed (path : String) (entry : UnitEntry) (heldUnit : (s.replaceUnit u).unit? path = some entry)
      (id : SymbolId) (inside : id ∈ entry.symbolIds) : ∃ symbol,
        (s.replaceUnit u).symbol? id = some symbol ∧ symbol.unit = ⟨path, entry.unit.version⟩ := by
    rw [unit?_replaceUnit] at heldUnit
    split at heldUnit
    · rename_i same
      cases heldUnit
      obtain ⟨symbol, new, rfl⟩ := List.mem_map.mp inside
      exact ⟨symbol, (symbol?_replaceUnit h fits _ _).mpr (.inl ⟨new, rfl⟩),
        same ▸ fits.unit symbol new⟩
    · rename_i different
      obtain ⟨symbol, held, unit⟩ := h.listed path entry heldUnit id inside
      have place : symbol.unit.path ≠ u.unit.path := congrArg UnitRef.path unit ▸ different
      exact ⟨symbol, (symbol?_replaceUnit h fits _ _).mpr (.inr ⟨held, place⟩), unit⟩
  constructor
  case toNamed => exact named
  case unitKeys =>
    rw [replaceUnit_units]
    exact Keyed.nodup_put (Keyed.nodup_erase h.unitKeys _) _ _
  case ownPath =>
    intro path entry heldUnit
    rw [unit?_replaceUnit] at heldUnit
    split at heldUnit
    · rename_i same
      cases heldUnit
      exact same.symm
    · exact h.ownPath path entry heldUnit
  case distinct =>
    intro path entry heldUnit
    rw [unit?_replaceUnit] at heldUnit
    split at heldUnit
    · cases heldUnit
      exact fits.ids
    · exact h.distinct path entry heldUnit
  case listed => exact listed
  case held =>
    intro id symbol held
    -- the listing is at the symbol's own path, and `listed` leaves no other
    have home : ∃ entry, (s.replaceUnit u).unit? symbol.unit.path = some entry ∧
        id ∈ entry.symbolIds := by
      rcases (symbol?_replaceUnit h fits _ _).mp held with ⟨new, rfl⟩ | ⟨old, place⟩
      · refine ⟨s.nextEntry u, ?_, List.mem_map.mpr ⟨symbol, new, rfl⟩⟩
        rw [unit?_replaceUnit, fits.unit symbol new, if_pos rfl]
      · obtain ⟨entry, heldUnit, inside, -⟩ := h.home old
        refine ⟨entry, ?_, inside⟩
        rw [unit?_replaceUnit, if_neg place, heldUnit]
    refine ⟨symbol.unit.path, home, ?_⟩
    rintro path ⟨entry, heldUnit, inside⟩
    obtain ⟨same, heldToo, unit⟩ := listed path entry heldUnit id inside
    rw [held] at heldToo
    cases heldToo
    exact (congrArg UnitRef.path unit).symm
  case recentDistinct =>
    rw [replaceUnit_recentPaths]
    exact pushRecent_nodup h.recentDistinct _
  case recentFew =>
    rw [replaceUnit_recentPaths]
    exact pushRecent_length _ _
  case recentHeld =>
    intro path inside
    rw [replaceUnit_recentPaths] at inside
    rw [unit?_replaceUnit]
    split
    · exact ⟨_, rfl⟩
    · rename_i different
      exact h.recentHeld path ((mem_pushRecent inside).resolve_left different)

theorem symbolsOf_replaceUnit_self (h : Consistent s) (fits : Fits s u) :
    (s.replaceUnit u).symbolsOf u.unit.path = u.symbols := by
  have heldUnit : (s.replaceUnit u).unit? u.unit.path = some (s.nextEntry u) := by
    rw [unit?_replaceUnit, if_pos rfl]
  have each : ∀ symbol ∈ u.symbols,
      ((s.replaceUnit u).symbol? ∘ Symbol.id) symbol = some symbol := fun symbol inside =>
    (symbol?_replaceUnit h fits _ _).mpr (.inl ⟨inside, rfl⟩)
  calc
    (s.replaceUnit u).symbolsOf u.unit.path
      = (u.symbols.map (·.id)).filterMap (s.replaceUnit u).symbol? := by rw [symbolsOf, heldUnit]; rfl
    _ = u.symbols.filterMap ((s.replaceUnit u).symbol? ∘ Symbol.id) := List.filterMap_map
    _ = u.symbols.filterMap some := List.filterMap_congr each
    _ = u.symbols := List.filterMap_some

end

/-- The symbols of a path stay what they are when it lists the same ids and each of them is held
    as before. -/
theorem symbolsOf_congr {a b : IndexState} {path : String} (units : a.unit? path = b.unit? path)
    (same : ∀ id ∈ b.idsOf path, a.symbol? id = b.symbol? id) :
    a.symbolsOf path = b.symbolsOf path := by
  rw [symbolsOf, symbolsOf, units]
  cases heldUnit : b.unit? path with
  | none => rfl
  | some entry => exact List.filterMap_congr (idsOf_held heldUnit ▸ same)

theorem symbolsOf_replaceUnit_other {u : UnitUpdate} (h : Consistent s) (fits : Fits s u)
    {path : String} (different : path ≠ u.unit.path) :
    (s.replaceUnit u).symbolsOf path = s.symbolsOf path := by
  refine symbolsOf_congr ?_ fun id inside => ?_
  · rw [unit?_replaceUnit, if_neg different]
  · obtain ⟨symbol, held, place⟩ := h.mem_idsOf.mp inside
    rw [held]
    exact (symbol?_replaceUnit h fits id symbol).mpr (.inr ⟨held, place ▸ different⟩)

/-! ## Dropping a file -/

theorem removeUnit_absent {path : String} (absent : s.unit? path = none) :
    s.removeUnit path = (none, s) := by
  rw [removeUnit, absent]

/-- The vectors without those of a file. -/
def vectorsWithout (s : IndexState) (path : String) : VectorIndex :=
  (s.vectors.deleteAll ((s.unit? path).elim [] (·.embedded))).2

/-- The index after a file that was held is dropped. -/
def dropped (s : IndexState) (path : String) : IndexState :=
  let base := ({ s with vectors := s.vectorsWithout path } : IndexState).without path
  { base with recentPaths := base.recentPaths.filter (· ≠ path) }

theorem removeUnit_held {path : String} {entry : UnitEntry} (held : s.unit? path = some entry) :
    s.removeUnit path = (some entry.symbolIds.length, s.dropped path) := by
  simp only [removeUnit, dropped, without, idsOf, vectorsWithout, unit?] at held ⊢
  simp only [held, Option.elim_some]

theorem unit?_removeUnit (s : IndexState) (path other : String) :
    (s.removeUnit path).2.unit? other = if other = path then none else s.unit? other := by
  cases held : s.unit? path with
  | none =>
      rw [removeUnit_absent held]
      split
      · rename_i same
        exact same ▸ held
      · rfl
  | some entry =>
      rw [removeUnit_held held]
      exact unit?_without { s with vectors := s.vectorsWithout path } path other

theorem symbol?_removeUnit (h : Consistent s) (path : String) (id : SymbolId) (symbol : Symbol) :
    (s.removeUnit path).2.symbol? id = some symbol ↔
      s.symbol? id = some symbol ∧ symbol.unit.path ≠ path := by
  cases held : s.unit? path with
  | none =>
      rw [removeUnit_absent held]
      refine ⟨fun heldSymbol => ⟨heldSymbol, fun place => ?_⟩, And.left⟩
      obtain ⟨entry, heldUnit, -⟩ := h.home heldSymbol
      rw [place, held] at heldUnit
      cases heldUnit
  | some entry =>
      rw [removeUnit_held held]
      exact symbol?_without (h.withVectors (s.vectorsWithout path)) path id symbol

theorem symbolsOf_removeUnit (h : Consistent s) (path other : String) :
    (s.removeUnit path).2.symbolsOf other = if other = path then [] else s.symbolsOf other := by
  split
  · rename_i same
    rw [symbolsOf, unit?_removeUnit, if_pos same]
  · rename_i different
    refine symbolsOf_congr ?_ fun id inside => ?_
    · rw [unit?_removeUnit, if_neg different]
    · obtain ⟨symbol, held, place⟩ := h.mem_idsOf.mp inside
      rw [held]
      exact (symbol?_removeUnit h path id symbol).mpr ⟨held, place ▸ different⟩

/-- Dropping a file keeps an index consistent. -/
theorem Consistent.removeUnit (h : Consistent s) (path : String) :
    Consistent (s.removeUnit path).2 := by
  cases held : s.unit? path with
  | none => exact (removeUnit_absent held).symm ▸ h
  | some entry =>
      have vectors := h.withVectors (s.vectorsWithout path)
      have named : Named (s.removeUnit path).2 := by
        rw [removeUnit_held held]
        have all := vectors.without_named path
        exact ⟨all.symbolKeys, all.ownId, all.table, all.found⟩
      have recent : (s.removeUnit path).2.recentPaths = s.recentPaths.filter (· ≠ path) := by
        rw [removeUnit_held held]
        exact congrArg (List.filter _) (forgetAll_elsewhere _ _).recentPaths
      have keys : (s.removeUnit path).2.units = Keyed.erase s.units path := by
        rw [removeUnit_held held]
        exact without_units _ path
      have units {other : String} {e : UnitEntry}
          (heldAfter : (s.removeUnit path).2.unit? other = some e) :
          other ≠ path ∧ s.unit? other = some e := by
        rw [unit?_removeUnit] at heldAfter
        split at heldAfter
        · cases heldAfter
        · rename_i different
          exact ⟨different, heldAfter⟩
      constructor
      case toNamed => exact named
      case unitKeys => exact keys ▸ Keyed.nodup_erase h.unitKeys path
      case ownPath => exact fun other e heldAfter => h.ownPath other e (units heldAfter).2
      case distinct => exact fun other e heldAfter => h.distinct other e (units heldAfter).2
      case listed =>
        intro other e heldAfter id inside
        obtain ⟨different, heldUnit⟩ := units heldAfter
        obtain ⟨symbol, heldSymbol, unit⟩ := h.listed other e heldUnit id inside
        have place : symbol.unit.path ≠ path := congrArg UnitRef.path unit ▸ different
        exact ⟨symbol, (symbol?_removeUnit h path id symbol).mpr ⟨heldSymbol, place⟩, unit⟩
      case held =>
        intro id symbol heldSymbol
        obtain ⟨heldBefore, place⟩ := (symbol?_removeUnit h path id symbol).mp heldSymbol
        obtain ⟨e, heldUnit, inside, -⟩ := h.home heldBefore
        obtain ⟨_, -, one⟩ := h.held id symbol heldBefore
        have own := one symbol.unit.path ⟨e, heldUnit, inside⟩
        refine ⟨symbol.unit.path, ⟨e, ?_, inside⟩, ?_⟩
        · rw [unit?_removeUnit, if_neg place, heldUnit]
        · rintro other ⟨e', heldAfter, insideToo⟩
          exact (one other ⟨e', (units heldAfter).2, insideToo⟩).trans own.symm
      case recentDistinct => exact recent ▸ h.recentDistinct.filter _
      case recentFew => exact recent ▸ (List.length_filter_le _ _).trans h.recentFew
      case recentHeld =>
        intro other inside
        rw [recent] at inside
        obtain ⟨insideBefore, different⟩ := List.mem_filter.mp inside
        rw [unit?_removeUnit, if_neg (of_decide_eq_true different)]
        exact h.recentHeld other insideBefore

/-! ## Committing -/

/-- A commit is refused for a vector that is not valid, is refused while it writes, or replaces the
    file after all vectors are written. -/
inductive CommitCase (s : IndexState) (u : UnitUpdate) :
    Except VectorError CommitCounts × IndexState → Prop where
  | invalid (cause : VectorError) : CommitCase s u (.error cause, s)
  | refused (cause : VectorError) (vectors : VectorIndex)
      (valid : (u.upserts.forM fun r => r.vector.validate s.vectors.store.dimension) = .ok ())
      (written : (s.vectors.deleteAll u.deletes).2.upsertAll u.upserts = (.error cause, vectors)) :
      CommitCase s u (.error cause, { s with
        vectors := vectors.restore (s.vectors.snapshot (u.deletes ++ u.upserts.map (·.id))) })
  | replaced (vectors : VectorIndex)
      (valid : (u.upserts.forM fun r => r.vector.validate s.vectors.store.dimension) = .ok ())
      (written : (s.vectors.deleteAll u.deletes).2.upsertAll u.upserts = (.ok (), vectors)) :
      CommitCase s u (.ok ⟨u.symbols.length, u.upserts.length, (s.vectors.deleteAll u.deletes).1⟩,
        ({ s with vectors } : IndexState).replaceUnit u)

theorem commit_cases (s : IndexState) (u : UnitUpdate) : CommitCase s u (s.commit u) := by
  cases valid : u.upserts.forM fun r => r.vector.validate s.vectors.store.dimension with
  | error cause =>
      simp only [commit, valid]
      exact .invalid cause
  | ok _ =>
      cases written : (s.vectors.deleteAll u.deletes).2.upsertAll u.upserts with
      | mk result vectors =>
          cases result with
          | error cause =>
              simp only [commit, valid, written]
              exact .refused cause vectors valid written
          | ok _ =>
              simp only [commit, valid, written]
              exact .replaced vectors valid written

theorem Fits.withVectors {u : UnitUpdate} (fits : Fits s u) (vectors : VectorIndex) :
    Fits { s with vectors } u :=
  ⟨fits.ids, fits.unit, fits.apart⟩

/-- A commit keeps an index consistent, whether it is refused or not. -/
theorem Consistent.commit {u : UnitUpdate} (h : Consistent s) (fits : Fits s u) :
    Consistent (s.commit u).2 := by
  have known := commit_cases s u
  generalize s.commit u = result at known ⊢
  cases known with
  | invalid cause => exact h
  | refused cause vectors valid written => exact h.withVectors _
  | replaced vectors valid written =>
      exact (h.withVectors vectors).replaceUnit (fits.withVectors vectors)

end CodeSearch.IndexState
