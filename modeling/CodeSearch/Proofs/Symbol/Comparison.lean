import CodeSearch.Proofs.Symbol.Renaming
import Mathlib.Data.List.Zip

/-! # What a comparison of two versions gives

The symbols of the new version come out complete and under ids that differ from each other. One
that is told to be unchanged has the id, the kind, the names and the text of an old symbol; what is
told to be added has an id that no old symbol has.
-/

namespace CodeSearch.SymbolDiff

/-- Two versions whose symbols can be told apart by their ids, with spare ids for the new ones. -/
structure Comparable (old new : List Symbol) : Prop where
  oldIds : (old.map (·.id)).Nodup
  newIds : (new.map (·.id)).Nodup
  spare : ∀ s ∈ new, Spare (old.length + 2 * new.length) s

/-- The ids that the symbols of a new version get. -/
abbrev names (old new : List Symbol) : Renaming :=
  newIds old new (matching old new)

section

variable {old new : List Symbol}

theorem numbered_ids (symbols : List Symbol) :
    symbols.zipIdx.map (·.1.id) = symbols.map (·.id) := by
  calc
    symbols.zipIdx.map (·.1.id) = (symbols.zipIdx.map Prod.fst).map (·.id) := by rw [List.map_map]; rfl
    _ = symbols.map (·.id) := by rw [List.zipIdx_map_fst]

theorem Comparable.numbered (c : Comparable old new) : (new.zipIdx.map (·.1.id)).Nodup :=
  numbered_ids new ▸ c.newIds

theorem Comparable.spareNumbered (c : Comparable old new) :
    ∀ s ∈ new.zipIdx, Spare (old.length + 2 * new.length) s.1 :=
  fun _ hs => c.spare _ (List.fst_mem_of_mem_zipIdx hs)

/-- The ids in use before fresh ones are given. -/
abbrev startIds (old new : List Symbol) : List SymbolId :=
  old.map (·.id) ++ Keyed.values (inheritedIds old new (matching old new))

theorem startIds_few (old new : List Symbol) :
    (startIds old new).length + new.zipIdx.length ≤ old.length + 2 * new.length := by
  have inherited : (inheritedIds old new (matching old new)).length ≤ 0 + new.zipIdx.length :=
    inherited_length new.zipIdx []
  simp only [startIds, List.length_append, List.length_map, Keyed.values, List.length_zipIdx] at *
  omega

/-- A matched symbol gets the id of its counterpart. -/
theorem names_of_previous (distinct : (new.map (·.id)).Nodup) {n : Nat} {s t : Symbol}
    (hs : new[n]? = some s) (ht : previous? old (matching old new) n = some t) :
    (names old new).apply s.id = t.id := by
  have inside : (s, n) ∈ new.zipIdx := List.mem_zipIdx_iff_getElem?.mpr hs
  have matched : (matching old new).any (·.1 == n) = true := by
    rw [← Bool.not_eq_false, ← previous?_none, ht]
    exact Option.some_ne_none t
  have keeps : ∀ u ∈ new.zipIdx, u.1.id = s.id → (matching old new).any (·.1 == u.2) = true := by
    rintro ⟨u, m⟩ hu same
    have place : m = n := place_unique distinct (List.mem_zipIdx_iff_getElem?.mp hu) hs same
    exact place ▸ matched
  have found : Keyed.get? (names old new) s.id = some t.id := by
    calc
      Keyed.get? (names old new) s.id
        = Keyed.get? (inheritedIds old new (matching old new)) s.id := get?_given_absent keeps
      _ = some t.id := by
          rw [inheritedIds, get?_inherited (numbered_ids new ▸ distinct) inside, ht]
          rfl
  rw [Renaming.apply, found, Option.getD_some]

theorem names_matched (c : Comparable old new) {n : Nat} {s t : Symbol} (hs : new[n]? = some s)
    (ht : previous? old (matching old new) n = some t) : (names old new).apply s.id = t.id :=
  names_of_previous c.newIds hs ht

theorem names_unmatched (c : Comparable old new) {n : Nat} {s : Symbol} (hs : new[n]? = some s)
    (unmatched : previous? old (matching old new) n = none) :
    Keyed.get? (names old new) s.id = some ((names old new).apply s.id) ∧
      Given (old.length + 2 * new.length) (startIds old new) s ((names old new).apply s.id) := by
  have inside : (s, n) ∈ new.zipIdx := List.mem_zipIdx_iff_getElem?.mpr hs
  obtain ⟨id, found, given⟩ : ∃ id, Keyed.get? (names old new) s.id = some id ∧
      Given (old.length + 2 * new.length) (startIds old new) s id :=
    get?_given c.numbered c.spareNumbered (startIds_few old new) inside (previous?_none.mp unmatched)
  have same : (names old new).apply s.id = id := by
    rw [Renaming.apply, found, Option.getD_some]
  exact same ▸ ⟨found, given⟩

theorem previous?_mem {n : Nat} {t : Symbol} (h : previous? old (matching old new) n = some t) :
    t ∈ old := by
  obtain ⟨o, -, listed⟩ := previous?_some h
  exact List.mem_of_getElem? listed

/-- The id of a symbol without a counterpart is not that of an old symbol. -/
theorem names_unmatched_ne (c : Comparable old new) {n : Nat} {s t : Symbol} (hs : new[n]? = some s)
    (unmatched : previous? old (matching old new) n = none) (ht : t ∈ old) :
    (names old new).apply s.id ≠ t.id := by
  intro same
  refine (names_unmatched c hs unmatched).2.free (List.mem_append_left _ ?_)
  exact List.mem_map.mpr ⟨t, ht, same.symm⟩

/-- No two new symbols get the same id. -/
theorem names_inj (c : Comparable old new) {s t : Symbol} (hs : s ∈ new) (ht : t ∈ new)
    (same : (names old new).apply s.id = (names old new).apply t.id) : s.id = t.id := by
  obtain ⟨m, hm⟩ := List.mem_iff_getElem?.mp hs
  obtain ⟨n, hn⟩ := List.mem_iff_getElem?.mp ht
  -- ids are old ones for matched symbols and in use nowhere for the others
  cases hp : previous? old (matching old new) m with
  | some a =>
      rw [names_matched c hm hp] at same
      cases hq : previous? old (matching old new) n with
      | some b =>
          rw [names_matched c hn hq] at same
          have place : m = n := previous?_inj c.oldIds hp hq same
          subst place
          rw [hm] at hn
          exact congrArg Symbol.id (Option.some.inj hn)
      | none => exact absurd same.symm (names_unmatched_ne c hn hq (previous?_mem hp))
  | none =>
      cases hq : previous? old (matching old new) n with
      | some b =>
          rw [names_matched c hn hq] at same
          exact absurd same (names_unmatched_ne c hm hp (previous?_mem hq))
      | none =>
          have found : Keyed.get? (names old new) s.id = Keyed.get? (names old new) t.id := by
            rw [(names_unmatched c hm hp).1, (names_unmatched c hn hq).1, same]
          have distinct : Keyed.get? (names old new) s.id = Keyed.get? (names old new) t.id →
              s.id = t.id :=
            given_inj (s := (s, m)) (t := (t, n)) c.numbered c.spareNumbered (startIds_few old new)
              (List.mem_zipIdx_iff_getElem?.mpr hm) (List.mem_zipIdx_iff_getElem?.mpr hn)
              (previous?_none.mp hp) (previous?_none.mp hq)
          exact distinct found

/-- The id of a new symbol is that of an old one, or derived from what the symbol is. -/
theorem names_origin (c : Comparable old new) {s : Symbol} (hs : s ∈ new) :
    (names old new).apply s.id ∈ old.map (·.id) ∨ (names old new).apply s.id = s.id ∨
      ∃ k < old.length + 2 * new.length + 2, (names old new).apply s.id = spareId s k := by
  obtain ⟨n, hn⟩ := List.mem_iff_getElem?.mp hs
  cases hp : previous? old (matching old new) n with
  | some t => exact .inl (List.mem_map.mpr ⟨t, previous?_mem hp, (names_matched c hn hp).symm⟩)
  | none => exact .inr (names_unmatched c hn hp).2.origin

/-! ## The parts of a comparison -/

theorem parts_perm (renamed : List (Symbol × Option Symbol)) :
    (renamed.filterMap added? ++ renamed.filterMap modified? ++ renamed.filterMap unchanged?).Perm
      (renamed.map Prod.fst) := by
  induction renamed with
  | nil => exact .nil
  | cons first rest ih =>
      obtain ⟨s, counterpart⟩ := first
      cases counterpart with
      | none => exact ih.cons s
      | some t =>
          by_cases same : isUnchanged t s
          · simp only [List.filterMap_cons, added?, modified?, unchanged?, same, if_true]
            exact List.perm_middle.trans (ih.cons s)
          · simp only [List.filterMap_cons, added?, modified?, unchanged?, same]
            rw [List.append_assoc] at ih ⊢
            exact List.perm_middle.trans (ih.cons s)

/-- The new symbols, each with its id and its counterpart. -/
def renamed (old new : List Symbol) : List (Symbol × Option Symbol) :=
  new.zipIdx.map fun s => ((names old new).applyTo s.1, previous? old (matching old new) s.2)

theorem current_perm (old new : List Symbol) :
    (between old new).current.Perm (new.map (names old new).applyTo) := by
  have all : (renamed old new).map Prod.fst = new.map (names old new).applyTo := by
    calc
      (renamed old new).map Prod.fst
        = (new.zipIdx.map Prod.fst).map (names old new).applyTo := by
            rw [renamed, List.map_map, List.map_map]
            rfl
      _ = new.map (names old new).applyTo := by rw [List.zipIdx_map_fst]
  exact (List.mergeSort_perm _ _).trans (all ▸ parts_perm (renamed old new))

theorem current_ids (c : Comparable old new) : ((between old new).current.map (·.id)).Nodup := by
  have distinct : ((new.map (·.id)).map (names old new).apply).Nodup := by
    refine List.Nodup.map_on (fun a ha b hb same => ?_) c.newIds
    obtain ⟨s, hs, rfl⟩ := List.mem_map.mp ha
    obtain ⟨t, ht, rfl⟩ := List.mem_map.mp hb
    exact names_inj c hs ht same
  have ids : (new.map (names old new).applyTo).map (·.id) =
      (new.map (·.id)).map (names old new).apply := by
    rw [List.map_map, List.map_map]
    rfl
  exact ((current_perm old new).map (·.id)).nodup_iff.mpr (ids ▸ distinct)

/-- What is told to be unchanged has the id and the content of an old symbol. -/
structure Unchanged (t s : Symbol) : Prop where
  id : t.id = s.id
  identity : identity t = identity s
  bodyHash : t.bodyHash = s.bodyHash
  signature : t.signature = s.signature

theorem unchanged_of (c : Comparable old new) {s : Symbol} (h : s ∈ (between old new).unchanged) :
    ∃ t ∈ old, Unchanged t s := by
  obtain ⟨⟨s', counterpart⟩, inside, told⟩ :=
    List.mem_filterMap.mp (show s ∈ (renamed old new).filterMap unchanged? from h)
  obtain ⟨⟨u, n⟩, numbered, pair⟩ := List.mem_map.mp inside
  have hu : new[n]? = some u := List.mem_zipIdx_iff_getElem?.mp numbered
  cases pair
  cases hp : previous? old (matching old new) n with
  | none => simp [hp, unchanged?] at told
  | some t =>
      simp only [hp, unchanged?, Option.ite_none_right_eq_some, Option.some.injEq, isUnchanged,
        Bool.and_eq_true, beq_iff_eq] at told
      obtain ⟨⟨body, signature⟩, rfl⟩ := told
      exact ⟨t, previous?_mem hp, (names_matched c hu hp).symm, (previous?_identity hu hp).symm,
        body, signature⟩

/-- A current symbol that is not among the changed ones is an old one in new surroundings. -/
theorem unchanged_of_current (c : Comparable old new) {s : Symbol}
    (h : s ∈ (between old new).current) (kept : s.id ∉ (between old new).changed.map (·.id)) :
    ∃ t ∈ old, Unchanged t s := by
  rcases List.mem_append.mp (List.mem_mergeSort.mp h) with changed | unchanged
  · exact absurd (List.mem_map.mpr ⟨s, changed, rfl⟩) kept
  · exact unchanged_of c unchanged

end

end CodeSearch.SymbolDiff
