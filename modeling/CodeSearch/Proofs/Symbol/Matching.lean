import CodeSearch.Proofs.Sorting
import CodeSearch.Symbol.Diff
import Mathlib.Data.List.Nodup
import Mathlib.Tactic.Common

/-! # Matched symbols

Two versions of a file are matched one to one: no symbol of either version is in two pairs, and
the symbols of a pair have the same kind and qualified name.
-/

namespace CodeSearch.SymbolDiff

/-- Pairs in which no number comes twice on one side. -/
structure OneToOne (pairs : List (Nat × Nat)) : Prop where
  new : (pairs.map (·.1)).Nodup
  old : (pairs.map (·.2)).Nodup

theorem OneToOne.append {left right : List (Nat × Nat)} (hl : OneToOne left) (hr : OneToOne right)
    (new : ∀ p ∈ left, ∀ q ∈ right, p.1 ≠ q.1) (old : ∀ p ∈ left, ∀ q ∈ right, p.2 ≠ q.2) :
    OneToOne (left ++ right) := by
  constructor
  · rw [List.map_append, List.nodup_append]
    refine ⟨hl.new, hr.new, fun n hn m hm => ?_⟩
    obtain ⟨p, hp, rfl⟩ := List.mem_map.mp hn
    obtain ⟨q, hq, rfl⟩ := List.mem_map.mp hm
    exact new p hp q hq
  · rw [List.map_append, List.nodup_append]
    refine ⟨hl.old, hr.old, fun n hn m hm => ?_⟩
    obtain ⟨p, hp, rfl⟩ := List.mem_map.mp hn
    obtain ⟨q, hq, rfl⟩ := List.mem_map.mp hm
    exact old p hp q hq

/-! ## Choosing by overlap -/

theorem choose_sound (candidates : List Candidate) :
    OneToOne (choose candidates) ∧
      ∀ p ∈ choose candidates, ∃ c ∈ candidates, p = (c.new, c.old) := by
  unfold choose
  refine List.foldlRecOn (motive := fun pairs : List (Nat × Nat) =>
    OneToOne pairs ∧ ∀ p ∈ pairs, ∃ c ∈ candidates, p = (c.new, c.old)) _ _
    ⟨⟨List.nodup_nil, List.nodup_nil⟩, fun p hp => absurd hp List.not_mem_nil⟩ ?_
  rintro pairs ⟨distinct, known⟩ c inside
  split
  · exact ⟨distinct, known⟩
  · rename_i free
    simp only [List.any_eq_true, Bool.or_eq_true, beq_iff_eq, not_exists, not_and, not_or] at free
    have single : OneToOne [(c.new, c.old)] := ⟨List.nodup_singleton _, List.nodup_singleton _⟩
    refine ⟨distinct.append single ?_ ?_, fun p hp => ?_⟩
    · exact fun p hp q hq => List.mem_singleton.mp hq ▸ (free p hp).1
    · exact fun p hp q hq => List.mem_singleton.mp hq ▸ (free p hp).2
    · rcases List.mem_append.mp hp with before | last
      · exact known p before
      · exact ⟨c, inside, List.mem_singleton.mp last⟩

/-! ## Pairs of one identity -/

theorem zip_oneToOne {new old : List Nat} (hn : new.Nodup) (ho : old.Nodup) :
    OneToOne (new.zip old) := by
  induction new generalizing old with
  | nil => exact ⟨List.nodup_nil, List.nodup_nil⟩
  | cons n new ih =>
      cases old with
      | nil => exact ⟨List.nodup_nil, List.nodup_nil⟩
      | cons o old =>
          obtain ⟨nAbsent, hn⟩ := List.nodup_cons.mp hn
          obtain ⟨oAbsent, ho⟩ := List.nodup_cons.mp ho
          have rest := ih hn ho
          constructor
          · refine List.nodup_cons.mpr ⟨fun inside => ?_, rest.new⟩
            obtain ⟨⟨m, k⟩, hm, rfl⟩ := List.mem_map.mp inside
            exact nAbsent (List.of_mem_zip hm).1
          · refine List.nodup_cons.mpr ⟨fun inside => ?_, rest.old⟩
            obtain ⟨⟨m, k⟩, hm, rfl⟩ := List.mem_map.mp inside
            exact oAbsent (List.of_mem_zip hm).2

theorem pairs_known {old new : List (Symbol × Nat)} {p : Nat × Nat} (h : p ∈ pairs old new) :
    p.1 ∈ new.map (·.2) ∧ p.2 ∈ old.map (·.2) := by
  rcases List.mem_append.mp h with chosen | rest
  · obtain ⟨c, hc, rfl⟩ := (choose_sound _).2 p chosen
    rw [List.mem_mergeSort, List.mem_flatMap] at hc
    obtain ⟨⟨s, n⟩, hs, hc⟩ := hc
    obtain ⟨⟨t, o⟩, ht, hc⟩ := List.mem_filterMap.mp hc
    simp only [Option.ite_none_right_eq_some, Option.some.injEq] at hc
    obtain ⟨-, rfl⟩ := hc
    exact ⟨List.mem_map.mpr ⟨_, hs, rfl⟩, List.mem_map.mpr ⟨_, ht, rfl⟩⟩
  · obtain ⟨n, o⟩ := p
    obtain ⟨hn, ho⟩ := List.of_mem_zip rest
    exact ⟨List.mem_of_mem_filter hn, List.mem_of_mem_filter ho⟩

theorem pairs_oneToOne {old new : List (Symbol × Nat)} (hn : (new.map (·.2)).Nodup)
    (ho : (old.map (·.2)).Nodup) : OneToOne (pairs old new) := by
  refine (choose_sound _).1.append (zip_oneToOne (hn.filter _) (ho.filter _)) ?_ ?_
  · rintro p hp ⟨n, o⟩ hq same
    have free := List.of_mem_filter (List.of_mem_zip hq).1
    simp only [Bool.not_eq_true', List.any_eq_false, beq_iff_eq] at free
    exact free p hp same
  · rintro p hp ⟨n, o⟩ hq same
    have free := List.of_mem_filter (List.of_mem_zip hq).2
    simp only [Bool.not_eq_true', List.any_eq_false, beq_iff_eq] at free
    exact free p hp same

/-! ## All identities -/

/-- The symbols of one identity with their numbers. -/
def ofIdentity (symbols : List Symbol) (i : Identity) : List (Symbol × Nat) :=
  symbols.zipIdx.filter fun s => identity s.1 == i

theorem mem_ofIdentity {symbols : List Symbol} {i : Identity} {n : Nat}
    (h : n ∈ (ofIdentity symbols i).map (·.2)) : ∃ s, symbols[n]? = some s ∧ identity s = i := by
  obtain ⟨⟨s, n⟩, inside, rfl⟩ := List.mem_map.mp h
  obtain ⟨listed, same⟩ := List.mem_filter.mp inside
  exact ⟨s, List.mem_zipIdx_iff_getElem?.mp listed, beq_iff_eq.mp same⟩

theorem numbers_nodup (symbols : List Symbol) (i : Identity) :
    ((ofIdentity symbols i).map (·.2)).Nodup := by
  have all : (symbols.zipIdx.map (·.2)).Nodup := by
    rw [List.zipIdx_map_snd]
    exact List.nodup_range'
  exact all.sublist (List.filter_sublist.map _)

theorem mem_numbered {symbols : List Symbol} {i : Identity} {s : Symbol} {n : Nat} :
    (s, n) ∈ ofIdentity symbols i ↔ symbols[n]? = some s ∧ identity s = i := by
  rw [ofIdentity, List.mem_filter, List.mem_zipIdx_iff_getElem?, beq_iff_eq]

theorem numbered_symbols (symbols : List Symbol) (i : Identity) :
    (ofIdentity symbols i).map (·.1) = symbols.filter (identity · == i) := by
  calc
    (ofIdentity symbols i).map (·.1)
      = (symbols.zipIdx.map Prod.fst).filter (identity · == i) := by
          rw [List.filter_map]
          rfl
    _ = symbols.filter (identity · == i) := by rw [List.zipIdx_map_fst]

theorem numbered_up (symbols : List Symbol) (i : Identity) :
    ((ofIdentity symbols i).map (·.2)).Pairwise (· < ·) := by
  have all : (symbols.zipIdx.map (·.2)).Pairwise (· < ·) := by
    rw [List.zipIdx_map_snd]
    exact List.pairwise_lt_range'
  exact all.sublist (List.filter_sublist.map _)

theorem matching_eq (old new : List Symbol) :
    matching old new = (new.map identity).eraseDups.flatMap fun i =>
      pairs (ofIdentity old i) (ofIdentity new i) := rfl

theorem matching_known {old new : List Symbol} {p : Nat × Nat} (h : p ∈ matching old new) :
    ∃ s t, new[p.1]? = some s ∧ old[p.2]? = some t ∧ identity s = identity t := by
  rw [matching_eq] at h
  obtain ⟨i, -, hp⟩ := List.mem_flatMap.mp h
  obtain ⟨inNew, inOld⟩ := pairs_known hp
  obtain ⟨s, hs, si⟩ := mem_ofIdentity inNew
  obtain ⟨t, ht, ti⟩ := mem_ofIdentity inOld
  exact ⟨s, t, hs, ht, si.trans ti.symm⟩

/-- Pairs of different identities share no symbol, as a symbol has one identity only. -/
theorem matching_oneToOne (old new : List Symbol) : OneToOne (matching old new) := by
  have apart {symbols : List Symbol} {i j : Identity} (different : i ≠ j) {n : Nat}
      (hi : n ∈ (ofIdentity symbols i).map (·.2)) (hj : n ∈ (ofIdentity symbols j).map (·.2)) :
      False := by
    obtain ⟨s, hs, si⟩ := mem_ofIdentity hi
    obtain ⟨t, ht, tj⟩ := mem_ofIdentity hj
    rw [hs] at ht
    cases ht
    exact different (si.symm.trans tj)
  have each (i : Identity) : OneToOne (pairs (ofIdentity old i) (ofIdentity new i)) :=
    pairs_oneToOne (numbers_nodup new i) (numbers_nodup old i)
  have identities := nodup_eraseDups (new.map identity)
  rw [matching_eq]
  constructor
  · rw [List.map_flatMap, List.nodup_flatMap]
    refine ⟨fun i _ => (each i).new, identities.imp fun different => ?_⟩
    intro n hi hj
    obtain ⟨p, hp, rfl⟩ := List.mem_map.mp hi
    obtain ⟨q, hq, same⟩ := List.mem_map.mp hj
    exact apart different (pairs_known hp).1 (same ▸ (pairs_known hq).1)
  · rw [List.map_flatMap, List.nodup_flatMap]
    refine ⟨fun i _ => (each i).old, identities.imp fun different => ?_⟩
    intro n hi hj
    obtain ⟨p, hp, rfl⟩ := List.mem_map.mp hi
    obtain ⟨q, hq, same⟩ := List.mem_map.mp hj
    exact apart different (pairs_known hp).2 (same ▸ (pairs_known hq).2)

end CodeSearch.SymbolDiff
