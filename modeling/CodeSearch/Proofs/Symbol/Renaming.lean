import CodeSearch.Proofs.Keyed
import CodeSearch.Proofs.Symbol.Matching
import Mathlib.Data.List.Perm.Subperm

/-! # The ids that new symbols get

Comparing two versions of a file renames the new symbols one to one: a matched symbol gets the id
of its counterpart, and every other one an id that no old symbol has. Nothing else of a symbol
changes but the ids that it mentions.
-/

namespace CodeSearch.SymbolDiff

/-! ## Fresh ids -/

/-- The ids derived for a symbol with the ordinals from 1000 on. -/
def spareId (s : Symbol) (k : Nat) : SymbolId :=
  SymbolId.derive s.unit.path s.kind s.qualifiedName (1000 + k)

theorem freshIdFrom_cases (inUse : List SymbolId) (s : Symbol) (tries ordinal : Nat) (id : SymbolId) :
    freshIdFrom inUse s tries ordinal id = id ∨
      ∃ k < tries, freshIdFrom inUse s tries ordinal id = spareId s (ordinal + k) := by
  induction tries generalizing ordinal id with
  | zero => exact .inl rfl
  | succ tries ih =>
      rw [freshIdFrom]
      split
      · rcases ih (ordinal + 1) (spareId s ordinal) with same | ⟨k, less, same⟩
        · exact .inr ⟨0, Nat.succ_pos _, same⟩
        · refine .inr ⟨k + 1, Nat.succ_lt_succ less, same.trans ?_⟩
          rw [Nat.add_right_comm, Nat.add_assoc]
      · exact .inl rfl

/-- When the search ends with an id in use, all ids that were tried are in use. -/
theorem tried_inUse {inUse : List SymbolId} {s : Symbol} {tries ordinal : Nat} {id : SymbolId}
    (h : freshIdFrom inUse s tries ordinal id ∈ inUse) :
    id ∈ inUse ∧ ∀ k < tries, spareId s (ordinal + k) ∈ inUse := by
  induction tries generalizing ordinal id with
  | zero => exact ⟨h, fun k less => absurd less (Nat.not_lt_zero k)⟩
  | succ tries ih =>
      rw [freshIdFrom] at h
      split at h
      · rename_i taken
        obtain ⟨first, others⟩ := ih h
        refine ⟨List.contains_iff_mem.mp taken, fun k less => ?_⟩
        cases k with
        | zero => exact first
        | succ k =>
            rw [Nat.add_comm k 1, ← Nat.add_assoc]
            exact others k (Nat.lt_of_succ_lt_succ less)
      · rename_i free
        exact absurd (List.contains_iff_mem.mpr h) free

/-- The spare ids of a symbol do not collide as long as `n` ids are in use. -/
def Spare (n : Nat) (s : Symbol) : Prop :=
  ∀ j ≤ n, ∀ k ≤ n, spareId s j = spareId s k → j = k

/-- Among more spare ids than are in use one is free. -/
theorem freshId_free {inUse : List SymbolId} {s : Symbol} {n : Nat} (spare : Spare n s)
    (few : inUse.length ≤ n) : freshId inUse s ∉ inUse := by
  intro h
  obtain ⟨-, taken⟩ := tried_inUse h
  let spares := (List.range (inUse.length + 1)).map (spareId s)
  have distinct : spares.Nodup := by
    refine List.Nodup.map_on (fun j hj k hk => ?_) List.nodup_range
    rw [List.mem_range] at hj hk
    exact spare j (by omega) k (by omega)
  have inside : spares ⊆ inUse := by
    intro id hid
    obtain ⟨k, hk, rfl⟩ := List.mem_map.mp hid
    rw [List.mem_range] at hk
    simpa using taken k (by omega)
  have few := (List.Nodup.subperm distinct inside).length_le
  simp only [spares, List.length_map, List.length_range] at few
  exact absurd few (Nat.not_succ_le_self _)

theorem freshId_cases (inUse : List SymbolId) (s : Symbol) :
    freshId inUse s = s.id ∨ ∃ k < inUse.length + 2, freshId inUse s = spareId s k := by
  have cases := freshIdFrom_cases inUse s (inUse.length + 2) 0 s.id
  simp only [Nat.zero_add] at cases
  exact cases

/-! ## Counterparts -/

section

variable {old new : List Symbol}

theorem previous?_some {n : Nat} {t : Symbol} (h : previous? old (matching old new) n = some t) :
    ∃ o, (n, o) ∈ matching old new ∧ old[o]? = some t := by
  obtain ⟨⟨m, o⟩, found, listed⟩ := Option.bind_eq_some_iff.mp h
  have same : m = n := by simpa using List.find?_some found
  exact ⟨o, same ▸ List.mem_of_find?_eq_some found, listed⟩

theorem previous?_none {n : Nat} : previous? old (matching old new) n = none ↔
    (matching old new).any (·.1 == n) = false := by
  constructor
  · intro h
    rw [List.any_eq_false]
    rintro p hp same
    obtain ⟨s, t, hs, ht, -⟩ := matching_known hp
    cases found : (matching old new).find? (·.1 == n) with
    | none => exact List.find?_eq_none.mp found p hp same
    | some q =>
        obtain ⟨-, t, -, ht, -⟩ := matching_known (List.mem_of_find?_eq_some found)
        simp [previous?, found, ht] at h
  · intro h
    rw [List.any_eq_false] at h
    rw [previous?, List.find?_eq_none.mpr h, Option.bind_none]

theorem previous?_identity {n : Nat} {s t : Symbol} (hs : new[n]? = some s)
    (h : previous? old (matching old new) n = some t) : identity s = identity t := by
  obtain ⟨o, inside, listed⟩ := previous?_some h
  obtain ⟨s', t', hs', ht', same⟩ := matching_known inside
  simp only [hs, listed, Option.some.injEq] at hs' ht'
  exact hs' ▸ ht' ▸ same

theorem place_unique {symbols : List Symbol} (distinct : (symbols.map (·.id)).Nodup) {m n : Nat}
    {s t : Symbol} (hm : symbols[m]? = some s) (hn : symbols[n]? = some t) (same : s.id = t.id) :
    m = n := by
  have inside : m < (symbols.map (·.id)).length := by
    rw [List.length_map]
    exact (List.getElem?_eq_some_iff.mp hm).1
  refine (List.getElem?_inj inside distinct).mp ?_
  rw [List.getElem?_map, List.getElem?_map, hm, hn, Option.map_some, Option.map_some, same]

/-- No two new symbols have the same counterpart. -/
theorem previous?_inj (distinct : (old.map (·.id)).Nodup) {m n : Nat} {s t : Symbol}
    (hm : previous? old (matching old new) m = some s)
    (hn : previous? old (matching old new) n = some t) (same : s.id = t.id) : m = n := by
  obtain ⟨o, inM, hs⟩ := previous?_some hm
  obtain ⟨k, inN, ht⟩ := previous?_some hn
  have place : o = k := place_unique distinct hs ht same
  exact congrArg Prod.fst
    (List.inj_on_of_nodup_map (matching_oneToOne old new).old inM inN place)

end

/-! ## Inherited ids -/

section

variable {old : List Symbol} {matched : List (Nat × Nat)}

theorem get?_inherit (names : Renaming) (s : Symbol × Nat) (key : SymbolId) :
    Keyed.get? (inherit old matched names s) key =
      if key = s.1.id then ((previous? old matched s.2).map (·.id)).or (Keyed.get? names key)
      else Keyed.get? names key := by
  unfold inherit
  cases previous? old matched s.2 with
  | none => simp
  | some t => simp [Keyed.get?_put]

theorem get?_inherited_absent {symbols : List (Symbol × Nat)} {names : Renaming} {key : SymbolId}
    (absent : ∀ s ∈ symbols, s.1.id ≠ key) :
    Keyed.get? (symbols.foldl (inherit old matched) names) key = Keyed.get? names key := by
  induction symbols generalizing names with
  | nil => rfl
  | cons s rest ih =>
      obtain ⟨first, others⟩ := List.forall_mem_cons.mp absent
      rw [List.foldl_cons, ih others, get?_inherit, if_neg first.symm]

theorem get?_inherited {symbols : List (Symbol × Nat)} {names : Renaming}
    (distinct : (symbols.map (·.1.id)).Nodup) {s : Symbol × Nat} (inside : s ∈ symbols) :
    Keyed.get? (symbols.foldl (inherit old matched) names) s.1.id =
      ((previous? old matched s.2).map (·.id)).or (Keyed.get? names s.1.id) := by
  induction symbols generalizing names with
  | nil => cases inside
  | cons first rest ih =>
      obtain ⟨absent, distinct⟩ := List.nodup_cons.mp distinct
      rw [List.foldl_cons]
      rcases List.mem_cons.mp inside with same | inRest
      · subst same
        rw [get?_inherited_absent fun t ht same => absent (List.mem_map.mpr ⟨t, ht, same⟩),
          get?_inherit, if_pos rfl]
      · have different : s.1.id ≠ first.1.id :=
          fun same => absent (List.mem_map.mpr ⟨s, inRest, same⟩)
        rw [ih distinct inRest, get?_inherit, if_neg different]

theorem inherited_length (symbols : List (Symbol × Nat)) (names : Renaming) :
    (symbols.foldl (inherit old matched) names).length ≤ names.length + symbols.length := by
  induction symbols generalizing names with
  | nil => exact Nat.le_refl _
  | cons s rest ih =>
      have step : (inherit old matched names s).length ≤ names.length + 1 := by
        unfold inherit
        split
        · exact Keyed.length_put_le _ _ _
        · exact Nat.le_succ _
      calc
        ((s :: rest).foldl (inherit old matched) names).length
          ≤ (inherit old matched names s).length + rest.length := ih _
        _ ≤ names.length + 1 + rest.length := Nat.add_le_add_right step _
        _ = names.length + (s :: rest).length := by rw [List.length_cons]; omega

end

/-! ## Fresh ids for the others -/

section

variable {matched : List (Nat × Nat)}

theorem giveFresh_unmatched {s : Symbol × Nat} (h : matched.any (·.1 == s.2) = false)
    (given : List SymbolId × Renaming) :
    giveFresh matched given s =
      (freshId given.1 s.1 :: given.1, Keyed.put given.2 s.1.id (freshId given.1 s.1)) := by
  rw [giveFresh, h]
  rfl

theorem giveFresh_length (matched : List (Nat × Nat)) (given : List SymbolId × Renaming)
    (s : Symbol × Nat) :
    (giveFresh matched given s).1.length ≤ given.1.length + 1 := by
  unfold giveFresh
  split
  · exact Nat.le_succ _
  · exact Nat.le_refl _

/-- Ids are given to the symbols without a counterpart only. -/
theorem get?_given_absent {symbols : List (Symbol × Nat)} {given : List SymbolId × Renaming}
    {key : SymbolId} (absent : ∀ s ∈ symbols, s.1.id = key → matched.any (·.1 == s.2) = true) :
    Keyed.get? (symbols.foldl (giveFresh matched) given).2 key = Keyed.get? given.2 key := by
  induction symbols generalizing given with
  | nil => rfl
  | cons s rest ih =>
      obtain ⟨first, others⟩ := List.forall_mem_cons.mp absent
      rw [List.foldl_cons, ih others, giveFresh]
      split
      · rfl
      · rename_i unmatched
        have different : key ≠ s.1.id := fun same => unmatched (first same.symm)
        exact Keyed.get?_put_of_ne _ _ different

/-- An id that a symbol without a counterpart gets: none of those in use, and derived from what the
    symbol is. -/
structure Given (n : Nat) (inUse : List SymbolId) (s : Symbol) (id : SymbolId) : Prop where
  free : id ∉ inUse
  origin : id = s.id ∨ ∃ k < n + 2, id = spareId s k

theorem get?_given {n : Nat} {symbols : List (Symbol × Nat)} {given : List SymbolId × Renaming}
    (distinct : (symbols.map (·.1.id)).Nodup) (spare : ∀ s ∈ symbols, Spare n s.1)
    (few : given.1.length + symbols.length ≤ n) {s : Symbol × Nat} (inside : s ∈ symbols)
    (unmatched : matched.any (·.1 == s.2) = false) :
    ∃ id, Keyed.get? (symbols.foldl (giveFresh matched) given).2 s.1.id = some id ∧
      Given n given.1 s.1 id := by
  induction symbols generalizing given with
  | nil => cases inside
  | cons first rest ih =>
      obtain ⟨absent, distinct⟩ := List.nodup_cons.mp distinct
      obtain ⟨spareFirst, spare⟩ := List.forall_mem_cons.mp spare
      rw [List.length_cons] at few
      rw [List.foldl_cons]
      rcases List.mem_cons.mp inside with same | inRest
      · subst same
        have later : ∀ t ∈ rest, t.1.id = s.1.id → matched.any (·.1 == t.2) = true :=
          fun t ht same => absurd (List.mem_map.mpr ⟨t, ht, same⟩) absent
        refine ⟨freshId given.1 s.1, ?_, freshId_free spareFirst (by omega), ?_⟩
        · rw [get?_given_absent later, giveFresh_unmatched unmatched, Keyed.get?_put_self]
        · rcases freshId_cases given.1 s.1 with own | ⟨k, less, spareIs⟩
          · exact .inl own
          · exact .inr ⟨k, by omega, spareIs⟩
      · have more : given.1 ⊆ (giveFresh matched given first).1 := by
          unfold giveFresh
          split
          · exact fun _ h => h
          · exact List.subset_cons_self _ _
        have fewer : (giveFresh matched given first).1.length + rest.length ≤ n := by
          have := giveFresh_length matched given first
          omega
        obtain ⟨id, found, fresh⟩ := ih distinct spare fewer inRest
        exact ⟨id, found, fun used => fresh.free (more used), fresh.origin⟩

/-- No two symbols are given the same id, as each that is given comes into use. -/
theorem given_inj {n : Nat} {symbols : List (Symbol × Nat)} {given : List SymbolId × Renaming}
    (distinct : (symbols.map (·.1.id)).Nodup) (spare : ∀ s ∈ symbols, Spare n s.1)
    (few : given.1.length + symbols.length ≤ n) {s t : Symbol × Nat} (hs : s ∈ symbols)
    (ht : t ∈ symbols) (unmatchedS : matched.any (·.1 == s.2) = false)
    (unmatchedT : matched.any (·.1 == t.2) = false)
    (same : Keyed.get? (symbols.foldl (giveFresh matched) given).2 s.1.id =
      Keyed.get? (symbols.foldl (giveFresh matched) given).2 t.1.id) : s.1.id = t.1.id := by
  induction symbols generalizing given with
  | nil => cases hs
  | cons first rest ih =>
      obtain ⟨absent, distinct⟩ := List.nodup_cons.mp distinct
      obtain ⟨-, spare⟩ := List.forall_mem_cons.mp spare
      rw [List.length_cons] at few
      rw [List.foldl_cons] at same
      have fewer : (giveFresh matched given first).1.length + rest.length ≤ n := by
        have := giveFresh_length matched given first
        omega
      -- what the first symbol gets is in use when the others are given theirs
      have apart {u : Symbol × Nat} (hu : u ∈ rest) (unmatched : matched.any (·.1 == u.2) = false)
          (unmatchedFirst : matched.any (·.1 == first.2) = false) :
          Keyed.get? (rest.foldl (giveFresh matched) (giveFresh matched given first)).2 u.1.id ≠
            Keyed.get? (rest.foldl (giveFresh matched) (giveFresh matched given first)).2 first.1.id := by
        obtain ⟨id, found, fresh⟩ := get?_given distinct spare fewer hu unmatched
        have later : ∀ t ∈ rest, t.1.id = first.1.id → matched.any (·.1 == t.2) = true :=
          fun t ht same => absurd (List.mem_map.mpr ⟨t, ht, same⟩) absent
        rw [giveFresh_unmatched unmatchedFirst] at fresh
        rw [found, get?_given_absent later, giveFresh_unmatched unmatchedFirst, Keyed.get?_put_self]
        intro equal
        exact fresh.free (Option.some.inj equal ▸ List.mem_cons_self)
      rcases List.mem_cons.mp hs with rfl | inS
      · rcases List.mem_cons.mp ht with rfl | inT
        · rfl
        · exact absurd same.symm (apart inT unmatchedT unmatchedS)
      · rcases List.mem_cons.mp ht with rfl | inT
        · exact absurd same (apart inS unmatchedS unmatchedT)
        · exact ih distinct spare fewer inS inT same

end

end CodeSearch.SymbolDiff
