import CodeSearch.Proofs.Symbol.Comparison
import CodeSearch.Proofs.Symbol.Extraction
import Mathlib.Data.Set.Function

/-! # The parts of a comparison

A comparison puts every symbol of the new version into one of three parts: it is new, or matched
and changed, or matched and the same. Together they are the new symbols under other ids, which a
matched symbol has from its counterpart and any other one has alone.
-/

namespace CodeSearch.SymbolDiff

section

variable {old new : List Symbol} {s t : Symbol}

/-! ## What stands in a part -/

theorem added?_eq_some {entry : Symbol × Option Symbol} :
    added? entry = some s ↔ entry = (s, none) := by
  obtain ⟨u, counterpart⟩ := entry
  cases counterpart with
  | none => simp [added?]
  | some t => simp [added?]

theorem modified?_eq_some {entry : Symbol × Option Symbol} :
    modified? entry = some s ↔ ∃ t, entry = (s, some t) ∧ isUnchanged t s = false := by
  obtain ⟨u, counterpart⟩ := entry
  cases counterpart with
  | none => simp [modified?]
  | some t =>
      simp only [modified?, Option.ite_none_left_eq_some, Option.some.injEq, Prod.mk.injEq,
        Bool.not_eq_true]
      constructor
      · rintro ⟨changed, rfl⟩
        exact ⟨t, ⟨rfl, rfl⟩, changed⟩
      · rintro ⟨t', ⟨rfl, rfl⟩, changed⟩
        exact ⟨changed, rfl⟩

theorem unchanged?_eq_some {entry : Symbol × Option Symbol} :
    unchanged? entry = some s ↔ ∃ t, entry = (s, some t) ∧ isUnchanged t s = true := by
  obtain ⟨u, counterpart⟩ := entry
  cases counterpart with
  | none => simp [unchanged?]
  | some t =>
      simp only [unchanged?, Option.ite_none_right_eq_some, Option.some.injEq, Prod.mk.injEq]
      constructor
      · rintro ⟨same, rfl⟩
        exact ⟨t, ⟨rfl, rfl⟩, same⟩
      · rintro ⟨t', ⟨rfl, rfl⟩, same⟩
        exact ⟨same, rfl⟩

theorem mem_part (part : Symbol × Option Symbol → Option Symbol) :
    s ∈ (renamed old new).filterMap part ↔ ∃ (n : Nat) (u : Symbol), new[n]? = some u ∧
      part ((names old new).applyTo u, previous? old (matching old new) n) = some s := by
  simp only [renamed, List.filterMap_map, List.mem_filterMap, Prod.exists,
    List.mem_zipIdx_iff_getElem?, Function.comp_apply]
  exact exists_comm

theorem mem_added : s ∈ (between old new).added ↔
    ∃ (n : Nat) (u : Symbol), new[n]? = some u ∧ previous? old (matching old new) n = none ∧
      (names old new).applyTo u = s := by
  refine Iff.trans (mem_part added?) ?_
  simp only [added?_eq_some, Prod.mk.injEq, and_comm]

theorem mem_modified : s ∈ (between old new).modified ↔
    ∃ (n : Nat) (u t : Symbol), new[n]? = some u ∧
      previous? old (matching old new) n = some t ∧ (names old new).applyTo u = s ∧
      isUnchanged t s = false := by
  refine Iff.trans (mem_part modified?) ?_
  simp only [modified?_eq_some, Prod.mk.injEq]
  tauto

theorem mem_unchanged : s ∈ (between old new).unchanged ↔
    ∃ (n : Nat) (u t : Symbol), new[n]? = some u ∧
      previous? old (matching old new) n = some t ∧ (names old new).applyTo u = s ∧
      isUnchanged t s = true := by
  refine Iff.trans (mem_part unchanged?) ?_
  simp only [unchanged?_eq_some, Prod.mk.injEq]
  tauto

/-- The matched symbols, changed or not. -/
def matchedSymbols (d : SymbolDiff) : List Symbol :=
  d.modified ++ d.unchanged

theorem mem_matched : s ∈ (between old new).matchedSymbols ↔
    ∃ (n : Nat) (u t : Symbol), new[n]? = some u ∧
      previous? old (matching old new) n = some t ∧ (names old new).applyTo u = s := by
  rw [matchedSymbols, List.mem_append, mem_modified, mem_unchanged]
  constructor
  · rintro (⟨n, u, t, place, counterpart, own, -⟩ | ⟨n, u, t, place, counterpart, own, -⟩)
    · exact ⟨n, u, t, place, counterpart, own⟩
    · exact ⟨n, u, t, place, counterpart, own⟩
  · rintro ⟨n, u, t, place, counterpart, own⟩
    cases told : isUnchanged t s with
    | false => exact .inl ⟨n, u, t, place, counterpart, own, told⟩
    | true => exact .inr ⟨n, u, t, place, counterpart, own, told⟩

/-! ## Counterparts of old symbols -/

theorem previous?_of_mem {n o : Nat} (h : (n, o) ∈ matching old new) (place : old[o]? = some t) :
    previous? old (matching old new) n = some t := by
  cases counterpart : previous? old (matching old new) n with
  | none =>
      have unmatched := List.any_eq_false.mp (previous?_none.mp counterpart) (n, o) h
      exact absurd (beq_iff_eq.mpr rfl) unmatched
  | some t' =>
      obtain ⟨o', h', place'⟩ := previous?_some counterpart
      have pair : (n, o) = (n, o') :=
        List.inj_on_of_nodup_map (matching_oneToOne old new).new h h' rfl
      cases pair
      rw [← place', place]

/-- The ids that matched symbols have are those of the old symbols in a pair. -/
theorem inherited_iff (c : Comparable old new) {o : Nat} (place : old[o]? = some t) :
    t.id ∈ (between old new).matchedSymbols.map (·.id) ↔
      ∃ n, (n, o) ∈ matching old new := by
  rw [List.mem_map]
  constructor
  · rintro ⟨s, matched, same⟩
    obtain ⟨n, u, t', placeNew, counterpart, rfl⟩ := mem_matched.mp matched
    obtain ⟨o', pair, place'⟩ := previous?_some counterpart
    have id : t'.id = t.id := (names_matched c placeNew counterpart).symm.trans same
    have here : o' = o := place_unique c.oldIds place' place id
    exact ⟨n, here ▸ pair⟩
  · rintro ⟨n, pair⟩
    obtain ⟨u, t', placeNew, -, -⟩ := matching_known pair
    have counterpart := previous?_of_mem pair place
    exact ⟨(names old new).applyTo u, mem_matched.mpr ⟨n, u, t, placeNew, counterpart, rfl⟩,
      names_matched c placeNew counterpart⟩

theorem removed_eq (c : Comparable old new) : (between old new).removed =
    old.filter fun t => t.id ∉ (between old new).matchedSymbols.map (·.id) := by
  have kept : ∀ p : Symbol × Nat, p ∈ old.zipIdx →
      (!(matching old new).any (·.2 == p.2)) =
        decide (p.1.id ∉ (between old new).matchedSymbols.map (·.id)) := by
    rintro ⟨t, o⟩ inside
    rw [decide_not, Bool.eq_iff_iff, Bool.not_eq_true', Bool.not_eq_true', decide_eq_false_iff_not,
      inherited_iff c (List.mem_zipIdx_iff_getElem?.mp inside)]
    simp only [List.any_eq_false, beq_iff_eq, Prod.forall, not_exists]
    constructor
    · intro free n pair
      exact free n o pair rfl
    · rintro free n o' pair rfl
      exact free n pair
  calc
    (between old new).removed
      = (old.zipIdx.filter fun p => !(matching old new).any (·.2 == p.2)).map Prod.fst := rfl
    _ = (old.zipIdx.filter fun p =>
          p.1.id ∉ (between old new).matchedSymbols.map (·.id)).map Prod.fst := by
        rw [List.filter_congr kept]
    _ = (old.zipIdx.map Prod.fst).filter fun t =>
          t.id ∉ (between old new).matchedSymbols.map (·.id) := by
        rw [List.filter_map]
        rfl
    _ = old.filter fun t => t.id ∉ (between old new).matchedSymbols.map (·.id) := by
        rw [List.zipIdx_map_fst]

/-! ## The renaming -/

/-- An id that no new symbol comes with is left alone. -/
theorem names_elsewhere {id : SymbolId} (absent : id ∉ new.map (·.id)) :
    (names old new).apply id = id := by
  have other : ∀ s ∈ new.zipIdx, s.1.id ≠ id := by
    intro s hs same
    exact absent (List.mem_map.mpr ⟨s.1, List.fst_mem_of_mem_zipIdx hs, same⟩)
  have notGiven : Keyed.get? (names old new) id =
      Keyed.get? (inheritedIds old new (matching old new)) id :=
    get?_given_absent fun s hs same => absurd same (other s hs)
  have notInherited : Keyed.get? (inheritedIds old new (matching old new)) id = none :=
    get?_inherited_absent other
  rw [Renaming.apply, notGiven, notInherited, Option.getD_none]

/-- How a comparison renames the symbols of the new version. -/
structure Renamed (f : SymbolId → SymbolId) (old new : List Symbol) (d : SymbolDiff) : Prop where
  inj : Set.InjOn f {id | id ∈ new.map (·.id)}
  elsewhere : ∀ id ∉ new.map (·.id), f id = id
  complete : (d.added ++ d.modified ++ d.unchanged).Perm (new.map (Symbol.rename f))
  currentIds : (d.current.map (·.id)).Nodup
  /-- Different matched symbols have the ids of different old ones. -/
  matchedIds : (d.matchedSymbols.map (·.id)).Nodup
  inherited : ∀ s ∈ d.matchedSymbols,
    ∃ t ∈ old, t.id = s.id ∧ t.kind = s.kind ∧ t.qualifiedName = s.qualifiedName
  fresh : ∀ s ∈ d.added, s.id ∉ old.map (·.id)
  removed : d.removed = old.filter fun t => t.id ∉ d.matchedSymbols.map (·.id)
  unchanged : ∀ s ∈ d.matchedSymbols, ∀ t ∈ old, t.id = s.id →
    (s ∈ d.unchanged ↔ t.bodyHash = s.bodyHash ∧ t.signature = s.signature)

theorem parts_current (d : SymbolDiff) :
    d.current.Perm (d.added ++ d.matchedSymbols) := by
  rw [matchedSymbols, ← List.append_assoc]
  exact List.mergeSort_perm _ _

/-- A matched symbol is told to be unchanged when its text and signature are those of its
    counterpart. -/
theorem unchanged_iff (c : Comparable old new) (hs : s ∈ (between old new).matchedSymbols)
    (ht : t ∈ old) (same : t.id = s.id) :
    s ∈ (between old new).unchanged ↔ t.bodyHash = s.bodyHash ∧ t.signature = s.signature := by
  -- the ids of old symbols differ, so `t` is the counterpart
  have counterpart {n : Nat} {u t' : Symbol} (place : new[n]? = some u)
      (pair : previous? old (matching old new) n = some t')
      (own : (names old new).applyTo u = s) : t' = t := by
    have id : t'.id = t.id := by
      rw [← names_matched c place pair, same, ← own]
      rfl
    exact List.inj_on_of_nodup_map c.oldIds (previous?_mem pair) ht id
  have told : isUnchanged t s = true ↔ t.bodyHash = s.bodyHash ∧ t.signature = s.signature := by
    simp [isUnchanged]
  rw [← told]
  constructor
  · intro inside
    obtain ⟨n, u, t', place, pair, own, unchanged⟩ := mem_unchanged.mp inside
    exact counterpart place pair own ▸ unchanged
  · intro unchanged
    obtain ⟨n, u, t', place, pair, own⟩ := mem_matched.mp hs
    exact mem_unchanged.mpr ⟨n, u, t', place, pair, own, counterpart place pair own ▸ unchanged⟩

end

/-- Comparing two versions is a consistent renaming of the new one that loses nothing. -/
theorem between_renamed {old new : List Symbol} (c : Comparable old new) :
    ∃ f, Renamed f old new (between old new) := by
  have ids := current_ids c
  have parts := (parts_current (between old new)).map (·.id)
  have apart := parts.nodup_iff.mp ids
  rw [List.map_append] at apart
  refine ⟨(names old new).apply, ?_⟩
  constructor
  case inj =>
    intro a ha b hb same
    obtain ⟨s, hs, rfl⟩ := List.mem_map.mp ha
    obtain ⟨t, ht, rfl⟩ := List.mem_map.mp hb
    exact names_inj c hs ht same
  case elsewhere => exact fun id absent => names_elsewhere absent
  case complete =>
    exact (List.mergeSort_perm _ _).symm.trans (current_perm old new)
  case currentIds => exact ids
  case matchedIds => exact apart.of_append_right
  case inherited =>
    intro s hs
    obtain ⟨n, u, t, place, counterpart, rfl⟩ := mem_matched.mp hs
    have same : identity u = identity t := previous?_identity place counterpart
    exact ⟨t, previous?_mem counterpart, (names_matched c place counterpart).symm,
      (congrArg Prod.fst same).symm, (congrArg Prod.snd same).symm⟩
  case fresh =>
    intro s hs held
    obtain ⟨n, u, place, unmatched, rfl⟩ := mem_added.mp hs
    obtain ⟨t, ht, same⟩ := List.mem_map.mp held
    exact names_unmatched_ne c place unmatched ht same.symm
  case removed => exact removed_eq c
  case unchanged => exact fun s hs t ht same => unchanged_iff c hs ht same

/-- A call of `f` on a line of its own, recursive as far as ids go. -/
def callOn (line ordinal : Nat) : Symbol :=
  let id := SymbolId.derive "a.py" .call "f" ordinal
  { (default : Symbol) with
    id
    name := "f"
    qualifiedName := "f"
    kind := .call
    unit := ⟨"a.py", 1⟩
    span := ⟨4 * line, 4 * line + 3, line, line⟩
    relations := [⟨.calls, .resolved id⟩] }

/-- The spare ids depend on what is called, and not on where. -/
theorem spareId_callOn (line ordinal k : Nat) :
    spareId (callOn line ordinal) k = SymbolId.derive "a.py" .call "f" (1000 + k) := by
  rw [spareId, callOn]

/-- The first of two calls was removed, and another one written after the second. The call that
    stayed takes its old id back, which is the one that the last call comes with. -/
theorem callOn_renamed : Comparable [callOn 5 1] [callOn 5 0, callOn 9 1] ∧
    ∃ f, Renamed f [callOn 5 1] [callOn 5 0, callOn 9 1]
      (between [callOn 5 1] [callOn 5 0, callOn 9 1]) := by
  have distinct : (((List.range 6).map fun k =>
      (⟨"a.py", .call, "f", 1000 + k⟩ : Seed)).map Seed.id).Nodup :=
    Seed.nodup_ids (by decide +kernel)
  rw [List.map_map] at distinct
  have comparable : Comparable [callOn 5 1] [callOn 5 0, callOn 9 1] := by
    have news : ([⟨"a.py", .call, "f", 0⟩, ⟨"a.py", .call, "f", 1⟩].map Seed.id).Nodup :=
      Seed.nodup_ids (by decide +kernel)
    refine ⟨List.nodup_singleton _, news, fun s hs j hj k hk same => ?_⟩
    have own : ∀ i, spareId s i = SymbolId.derive "a.py" .call "f" (1000 + i) := by
      rcases List.mem_pair.mp hs with rfl | rfl
      · exact spareId_callOn 5 0
      · exact spareId_callOn 9 1
    simp only [List.length_cons, List.length_nil] at hj hk
    rw [own j, own k] at same
    exact List.inj_on_of_nodup_map distinct (List.mem_range.mpr (by omega))
      (List.mem_range.mpr (by omega)) same
  exact ⟨comparable, between_renamed comparable⟩

end CodeSearch.SymbolDiff
