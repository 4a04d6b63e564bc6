import CodeSearch.Index.Commit
import CodeSearch.Index.IdSet
import CodeSearch.Proofs.Keyed
import Mathlib.Data.String.Basic

/-! # Symbols and the names under which they are found

Each held symbol is found under its name and its qualified name in lower case, and nothing else is
found. Holding a symbol under a new id, and forgetting one, keeps it so.
-/

/-! ## Laws of sets of ids

Inserting and erasing keep a list ascending, so that every id stands in it at most once.
-/

namespace CodeSearch.IdSet

/-- Every id comes before all later ones. -/
def Ascending (ids : IdSet) : Prop :=
  ids.Pairwise (· < ·)

theorem Ascending.nodup {ids : IdSet} (h : Ascending ids) : ids.Nodup :=
  List.Pairwise.imp ne_of_lt h

theorem insert_ascending (id : SymbolId) {ids : IdSet} (h : Ascending ids) :
    Ascending (insert id ids) := by
  induction ids with
  | nil => exact List.pairwise_singleton _ id
  | cons first rest ih =>
      obtain ⟨before, ascending⟩ := List.pairwise_cons.mp h
      unfold insert
      split
      · rename_i less
        refine List.pairwise_cons.mpr ⟨fun other hOther => ?_, h⟩
        rcases List.mem_cons.mp hOther with rfl | inRest
        · exact less
        · exact lt_trans less (before other inRest)
      · rename_i notLess
        split
        · exact h
        · rename_i different
          have greater : first < id := lt_of_le_of_ne (not_lt.mp notLess) (Ne.symm different)
          refine List.pairwise_cons.mpr ⟨fun other hOther => ?_, ih ascending⟩
          rcases (mem_insert id other rest).mp hOther with rfl | inRest
          · exact greater
          · exact before other inRest

theorem erase_ascending (id : SymbolId) {ids : IdSet} (h : Ascending ids) :
    Ascending (erase ids id) :=
  List.Pairwise.filter _ h

theorem insert_ne_nil (id : SymbolId) (ids : IdSet) : insert id ids ≠ [] :=
  List.ne_nil_of_mem ((mem_insert id id ids).mpr (.inl rfl))

theorem mem_union {ids : IdSet} {more : List SymbolId} {id : SymbolId} :
    id ∈ union ids more ↔ id ∈ ids ∨ id ∈ more := by
  induction more generalizing ids with
  | nil => simp [union]
  | cons first rest ih =>
      calc
        id ∈ union ids (first :: rest) ↔ id ∈ insert first ids ∨ id ∈ rest := ih
        _ ↔ (id = first ∨ id ∈ ids) ∨ id ∈ rest := by rw [mem_insert]
        _ ↔ id ∈ ids ∨ id ∈ first :: rest := by rw [List.mem_cons]; tauto

theorem union_ascending {ids : IdSet} (h : Ascending ids) (more : List SymbolId) :
    Ascending (union ids more) :=
  List.foldlRecOn more _ h fun _ ascending id _ => insert_ascending id ascending

theorem mem_eraseAll {ids : IdSet} {less : List SymbolId} {id : SymbolId} :
    id ∈ less.foldl erase ids ↔ id ∈ ids ∧ id ∉ less := by
  induction less generalizing ids with
  | nil => simp
  | cons first rest ih =>
      rw [List.foldl_cons, ih, mem_erase, List.mem_cons]
      tauto

theorem eraseAll_ascending {ids : IdSet} (h : Ascending ids) (less : List SymbolId) :
    Ascending (less.foldl erase ids) :=
  List.foldlRecOn less _ h fun _ ascending id _ => erase_ascending id ascending

end CodeSearch.IdSet

/-! ## Keys of symbols -/

namespace CodeSearch

theorem Symbol.mem_nameKeys {s : Symbol} {key : String} :
    key ∈ s.nameKeys ↔ key = Text.lower s.name ∨ key = Text.lower s.qualifiedName := by
  simp only [Symbol.nameKeys]
  split
  · rename_i same
    rw [List.mem_singleton, ← same, or_self]
  · rw [List.mem_cons, List.mem_singleton]

namespace IndexState

/-! ## Entries of names -/

/-- The ids that are found under a key. -/
def found (names : Keyed String IdSet) (key : String) : IdSet :=
  (Keyed.get? names key).getD []

/-- Entries under distinct keys, each of which is an ascending list of at least one id. -/
structure NameTable (names : Keyed String IdSet) : Prop where
  keys : (Keyed.keys names).Nodup
  nonempty : ∀ key ids, Keyed.get? names key = some ids → ids ≠ []
  ascending : ∀ key ids, Keyed.get? names key = some ids → IdSet.Ascending ids

theorem NameTable.found_ascending {names : Keyed String IdSet} (h : NameTable names) (key : String) :
    IdSet.Ascending (found names key) := by
  unfold found
  cases held : Keyed.get? names key with
  | none => exact List.Pairwise.nil
  | some ids => exact h.ascending key ids held

theorem NameTable.put {names : Keyed String IdSet} (h : NameTable names) (key : String)
    {ids : IdSet} (nonempty : ids ≠ []) (ascending : IdSet.Ascending ids) :
    NameTable (Keyed.put names key ids) := by
  have entry {k : String} {a : IdSet} (held : Keyed.get? (Keyed.put names key ids) k = some a) :
      a = ids ∨ Keyed.get? names k = some a := by
    rw [Keyed.get?_put] at held
    split at held
    · exact .inl (Option.some.inj held).symm
    · exact .inr held
  refine ⟨Keyed.nodup_put h.keys key ids, fun k a held => ?_, fun k a held => ?_⟩
  · rcases entry held with rfl | earlier
    · exact nonempty
    · exact h.nonempty k a earlier
  · rcases entry held with rfl | earlier
    · exact ascending
    · exact h.ascending k a earlier

theorem NameTable.erase {names : Keyed String IdSet} (h : NameTable names) (key : String) :
    NameTable (Keyed.erase names key) := by
  have entry {k : String} {a : IdSet} (held : Keyed.get? (Keyed.erase names key) k = some a) :
      Keyed.get? names k = some a := by
    rw [Keyed.get?_erase] at held
    split at held
    · cases held
    · exact held
  exact ⟨Keyed.nodup_erase h.keys key, fun k a held => h.nonempty k a (entry held),
    fun k a held => h.ascending k a (entry held)⟩

theorem addName_table {names : Keyed String IdSet} (h : NameTable names) (id : SymbolId)
    (key : String) : NameTable (addName id names key) :=
  h.put key (IdSet.insert_ne_nil _ _) (IdSet.insert_ascending id (h.found_ascending key))

theorem dropName_table {names : Keyed String IdSet} (h : NameTable names) (id : SymbolId)
    (key : String) : NameTable (dropName id names key) := by
  simp only [dropName]
  split
  · exact h
  · rename_i ids held
    split
    · exact h.erase key
    · rename_i nonempty
      exact h.put key (fun empty => nonempty (List.isEmpty_iff.mpr empty))
        (IdSet.erase_ascending id (h.ascending key ids held))

theorem mem_found_addName (names : Keyed String IdSet) (id other : SymbolId) (key k : String) :
    other ∈ found (addName id names key) k ↔ other ∈ found names k ∨ other = id ∧ k = key := by
  rw [found, addName, Keyed.get?_put]
  split
  · rename_i same
    rw [Option.getD_some, IdSet.mem_insert, found, same]
    tauto
  · rename_i different
    rw [found]
    tauto

theorem mem_found_dropName (names : Keyed String IdSet) (id other : SymbolId) (key k : String) :
    other ∈ found (dropName id names key) k ↔ other ∈ found names k ∧ ¬(other = id ∧ k = key) := by
  cases held : Keyed.get? names key with
  | none =>
      have absent (same : k = key) : other ∉ found names k := by
        rw [found, same, held]
        exact List.not_mem_nil
      simp only [dropName, held]
      tauto
  | some ids =>
      have here (same : k = key) : found names k = ids := by rw [found, same, held, Option.getD_some]
      have left : other ∈ IdSet.erase ids id ↔ other ≠ id ∧ other ∈ ids := IdSet.mem_erase ..
      simp only [dropName, held]
      split
      · rename_i empty
        rw [List.isEmpty_iff.mp empty] at left
        rw [found, Keyed.get?_erase]
        split
        · rename_i same
          rw [here same]
          simp only [List.not_mem_nil, false_iff, Option.getD_none] at left ⊢
          tauto
        · rename_i different
          rw [found]
          tauto
      · rw [found, Keyed.get?_put]
        split
        · rename_i same
          rw [here same, Option.getD_some, left]
          tauto
        · rename_i different
          rw [found]
          tauto

theorem addNames_table {names : Keyed String IdSet} (h : NameTable names) (s : Symbol) :
    NameTable (addNames names s) :=
  List.foldlRecOn _ _ h fun _ table key _ => addName_table table s.id key

theorem dropNames_table {names : Keyed String IdSet} (h : NameTable names) (s : Symbol) :
    NameTable (dropNames names s) :=
  List.foldlRecOn _ _ h fun _ table key _ => dropName_table table s.id key

theorem mem_found_addNames (names : Keyed String IdSet) (s : Symbol) (id : SymbolId) (k : String) :
    id ∈ found (addNames names s) k ↔ id ∈ found names k ∨ id = s.id ∧ k ∈ s.nameKeys := by
  have each (keys : List String) : id ∈ found (keys.foldl (addName s.id) names) k ↔
      id ∈ found names k ∨ id = s.id ∧ k ∈ keys := by
    induction keys generalizing names with
    | nil => simp
    | cons key rest ih =>
        rw [List.foldl_cons, ih, mem_found_addName, List.mem_cons]
        tauto
  exact each s.nameKeys

theorem mem_found_dropNames (names : Keyed String IdSet) (s : Symbol) (id : SymbolId) (k : String) :
    id ∈ found (dropNames names s) k ↔ id ∈ found names k ∧ ¬(id = s.id ∧ k ∈ s.nameKeys) := by
  have each (keys : List String) : id ∈ found (keys.foldl (dropName s.id) names) k ↔
      id ∈ found names k ∧ ¬(id = s.id ∧ k ∈ keys) := by
    induction keys generalizing names with
    | nil => simp
    | cons key rest ih =>
        rw [List.foldl_cons, ih, mem_found_dropName, List.mem_cons]
        tauto
  exact each s.nameKeys

/-! ## Held symbols -/

/-- Symbols are held under their own ids, and found under exactly their names. -/
structure Named (s : IndexState) : Prop where
  symbolKeys : (Keyed.keys s.symbols).Nodup
  ownId : ∀ id symbol, s.symbol? id = some symbol → symbol.id = id
  table : NameTable s.byName
  found : ∀ key id, id ∈ found s.byName key ↔ ∃ symbol, s.symbol? id = some symbol ∧
    (key = Text.lower symbol.name ∨ key = Text.lower symbol.qualifiedName)

theorem symbol?_addSymbol (s : IndexState) (symbol : Symbol) (id : SymbolId) :
    (s.addSymbol symbol).symbol? id = if id = symbol.id then some symbol else s.symbol? id :=
  Keyed.get?_put s.symbols symbol.id id symbol

theorem symbol?_forgetSymbol (s : IndexState) (id other : SymbolId) :
    (s.forgetSymbol id).symbol? other = if other = id then none else s.symbol? other := by
  unfold forgetSymbol
  split
  · rename_i absent
    split
    · rename_i same
      rw [same, absent]
    · rfl
  · exact Keyed.get?_erase s.symbols id other

theorem Named.addSymbol {s : IndexState} (h : Named s) {symbol : Symbol}
    (absent : s.symbol? symbol.id = none) : Named (s.addSymbol symbol) := by
  refine ⟨Keyed.nodup_put h.symbolKeys _ _, fun id held heldHere => ?_, addNames_table h.table symbol,
    fun key id => ?_⟩
  · rw [symbol?_addSymbol] at heldHere
    split at heldHere
    · rename_i same
      rw [same, Option.some.inj heldHere]
    · exact h.ownId id held heldHere
  · have names : (s.addSymbol symbol).byName = addNames s.byName symbol := rfl
    rw [names, mem_found_addNames, h.found, symbol?_addSymbol, Symbol.mem_nameKeys]
    split
    · rename_i same
      rw [same, absent]
      simp
    · rename_i different
      simp [different]

theorem Named.forgetSymbol {s : IndexState} (h : Named s) (id : SymbolId) :
    Named (s.forgetSymbol id) := by
  cases heldHere : s.symbol? id with
  | none =>
      have same : s.forgetSymbol id = s := by simp only [IndexState.forgetSymbol, heldHere]
      exact same.symm ▸ h
  | some symbol =>
      have own : symbol.id = id := h.ownId id symbol heldHere
      have after : s.forgetSymbol id =
          { s with symbols := Keyed.erase s.symbols id, byName := dropNames s.byName symbol } := by
        simp only [IndexState.forgetSymbol, heldHere]
      refine ⟨?_, fun other held hHeld => ?_, ?_, fun key other => ?_⟩
      · rw [after]
        exact Keyed.nodup_erase h.symbolKeys id
      · rw [symbol?_forgetSymbol] at hHeld
        split at hHeld
        · cases hHeld
        · exact h.ownId other held hHeld
      · rw [after]
        exact dropNames_table h.table symbol
      · have names : (s.forgetSymbol id).byName = dropNames s.byName symbol := by rw [after]
        rw [names, mem_found_dropNames, h.found, symbol?_forgetSymbol, Symbol.mem_nameKeys, own]
        split
        · rename_i same
          rw [same, heldHere]
          simp only [Option.some.injEq, exists_eq_left', reduceCtorEq, false_and, exists_false]
          tauto
        · rename_i different
          simp [different]

/-! ## Many symbols at once -/

theorem symbol?_forgetAll (s : IndexState) (ids : List SymbolId) (id : SymbolId) :
    (ids.foldl IndexState.forgetSymbol s).symbol? id = if id ∈ ids then none else s.symbol? id := by
  induction ids generalizing s with
  | nil => rfl
  | cons first rest ih =>
      rw [List.foldl_cons, ih, symbol?_forgetSymbol]
      by_cases same : id = first
      · simp [same]
      · simp [same]

theorem Named.forgetAll {s : IndexState} (h : Named s) (ids : List SymbolId) :
    Named (ids.foldl IndexState.forgetSymbol s) :=
  List.foldlRecOn ids _ h fun _ named id _ => named.forgetSymbol id

theorem symbol?_addAll {symbols : List Symbol} (distinct : (symbols.map (·.id)).Nodup)
    (s : IndexState) (id : SymbolId) (held : Symbol) :
    (symbols.foldl IndexState.addSymbol s).symbol? id = some held ↔
      held ∈ symbols ∧ held.id = id ∨ s.symbol? id = some held ∧ id ∉ symbols.map (·.id) := by
  induction symbols generalizing s with
  | nil => simp
  | cons first rest ih =>
      obtain ⟨absent, distinct⟩ := List.nodup_cons.mp distinct
      rw [List.foldl_cons, ih distinct, symbol?_addSymbol, List.map_cons]
      by_cases same : id = first.id
      · subst same
        have one : held ∈ rest → held.id ≠ first.id :=
          fun inRest same => absent (List.mem_map.mpr ⟨held, inRest, same⟩)
        simp only [if_true, Option.some.injEq, List.mem_cons, true_or, not_true, and_false, or_false]
        constructor
        · rintro (⟨inRest, same⟩ | ⟨rfl, -⟩)
          · exact absurd same (one inRest)
          · exact ⟨.inl rfl, rfl⟩
        · rintro ⟨rfl | inRest, same⟩
          · exact .inr ⟨rfl, absent⟩
          · exact absurd same (one inRest)
      · have other : held = first → held.id ≠ id := fun h => h ▸ Ne.symm same
        simp only [same, if_false, List.mem_cons, false_or]
        tauto

theorem Named.addAll {symbols : List Symbol} (distinct : (symbols.map (·.id)).Nodup)
    {s : IndexState} (h : Named s) (absent : ∀ symbol ∈ symbols, s.symbol? symbol.id = none) :
    Named (symbols.foldl IndexState.addSymbol s) := by
  induction symbols generalizing s with
  | nil => exact h
  | cons first rest ih =>
      obtain ⟨fresh, distinct⟩ := List.nodup_cons.mp distinct
      obtain ⟨absentFirst, absentRest⟩ := List.forall_mem_cons.mp absent
      refine ih distinct (h.addSymbol absentFirst) fun symbol inRest => ?_
      have different : symbol.id ≠ first.id :=
        fun same => fresh (List.mem_map.mpr ⟨symbol, inRest, same⟩)
      rw [symbol?_addSymbol, if_neg different]
      exact absentRest symbol inRest

end IndexState

end CodeSearch
