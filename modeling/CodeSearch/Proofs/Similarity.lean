import CodeSearch.Proofs.Shape.Hash
import CodeSearch.Proofs.Sorting
import Mathlib.Algebra.Field.Rat
import Mathlib.Algebra.Order.Field.Basic
import Mathlib.Algebra.Order.Ring.Rat
import Mathlib.Data.List.Nodup
import Mathlib.Data.Prod.Lex
import Mathlib.Data.String.Basic

/-! # Pruning by size

A search compares a candidate only if the sizes alone let it reach the threshold. Which candidates
are found is first told for any numbers, as the search tests them: by their sizes and by their
similarity. In fractions the first test adds nothing, since no fewer edits lead from one list to
another than their lengths differ by, and since shapes of one hash have one skeleton and so one
size. The order of a listing is that of the fractions, and of distinct ids among equals, so it does
not depend on the order of the candidates.

In scores the bound and the similarity are rounded apart, so a candidate at the very threshold can
be lost. Of scores only the first part is said here: what is found is what passes both tests.
-/

namespace CodeSearch.Similarity

open Scale (ofNat)
open Digest (Blake3.Apart)
open Shape (hashed)

/-! ## What is found -/

section

variable {F : Type} [Sub F] [Div F] [LT F] [LE F] [DecidableLT F] [DecidableLE F] [Scale F]
variable {a b : Shape} {target : Symbol} {candidates : List Symbol} {threshold score : F}

theorem comparable_iff {k l : SymbolKind} :
    comparable k l = true ↔ k = l ∧ (k = .function ∨ k = .type) := by
  simp [comparable]

theorem atLeast?_eq_some : atLeast? a b threshold = some score ↔
    ¬ sizeBound a.size b.size < threshold ∧ threshold ≤ score ∧ score = ofShapes a b := by
  simp only [atLeast?]
  split
  · rename_i below
    simp [below]
  · rename_i reaches
    rw [Option.ite_none_right_eq_some, Option.some.injEq]
    constructor
    · rintro ⟨enough, rfl⟩
      exact ⟨reaches, enough, rfl⟩
    · rintro ⟨-, enough, rfl⟩
      exact ⟨enough, rfl⟩

/-- A candidate is another symbol of the target's kind, which is one that can be compared, and as
    similar as this to the shape of the target. -/
structure Similar (target : Symbol) (shape : Shape) (c : Symbol) (score : F) : Prop where
  another : c.id ≠ target.id
  alike : c.kind = target.kind
  compared : c.kind = .function ∨ c.kind = .type
  measured : ∃ other, c.shape = some other ∧ score = ofShapes shape other

/-- The candidates that are listed before they are sorted. -/
def found (target : Symbol) (shape : Shape) (candidates : List Symbol) (threshold : F) :
    List (SymbolId × F) :=
  (candidates.filter fun c => c.id != target.id && comparable c.kind target.kind).filterMap
    fun c => do
      let score ← atLeast? shape (← c.shape) (clamp threshold)
      some (c.id, score)

theorem find_eq {shape : Shape} (shaped : target.shape = some shape) :
    find target candidates threshold =
      (found target shape candidates threshold).mergeSort bestFirst := by
  rw [find, shaped]
  rfl

/-- A candidate is found if it passes both tests. -/
theorem mem_found {shape : Shape} {e : SymbolId × F} :
    e ∈ found target shape candidates threshold ↔ ∃ c ∈ candidates, c.id = e.1 ∧
      Similar target shape c e.2 ∧ clamp threshold ≤ e.2 ∧
      ∀ other, c.shape = some other → ¬ sizeBound shape.size other.size < clamp threshold := by
  simp only [found, List.mem_filterMap, List.mem_filter, Bool.and_eq_true, bne_iff_ne,
    comparable_iff, bind, Option.bind_eq_some_iff, Option.some.injEq, atLeast?_eq_some]
  constructor
  · rintro ⟨c, ⟨here, another, alike, compared⟩, other, shaped, score, ⟨reaches, enough, rfl⟩, rfl⟩
    refine ⟨c, here, rfl, ⟨another, alike, compared, other, shaped, rfl⟩, enough, ?_⟩
    intro other' shaped'
    cases shaped.symm.trans shaped'
    exact reaches
  · rintro ⟨c, here, named, ⟨another, alike, compared, other, shaped, measured⟩, enough, reaches⟩
    exact ⟨c, ⟨here, another, alike, compared⟩, other, shaped, e.2,
      ⟨reaches other shaped, enough, measured⟩, by rw [named]⟩

theorem found_perm {shape : Shape} {others : List Symbol} (perm : candidates.Perm others) :
    (found target shape candidates threshold).Perm (found target shape others threshold) :=
  (perm.filter _).filterMap _

/-- Every candidate is listed once, by its id. -/
theorem found_ids {shape : Shape} (distinct : (candidates.map (·.id)).Nodup) :
    ((found target shape candidates threshold).map (·.1)).Nodup := by
  have kept := distinct.sublist
    ((List.filter_sublist (p := fun c : Symbol =>
      c.id != target.id && comparable c.kind target.kind)).map (·.id))
  rw [List.Nodup, List.pairwise_map] at kept
  rw [List.Nodup, List.pairwise_map, found, List.pairwise_filterMap]
  refine kept.imp fun {c d} differ x hx y hy => ?_
  simp only [bind, Option.bind_eq_some_iff, Option.some.injEq] at hx hy
  obtain ⟨-, -, -, -, rfl⟩ := hx
  obtain ⟨-, -, -, -, rfl⟩ := hy
  exact differ

end

/-! ## Fractions -/

/-- Similarity measured without rounding. -/
instance : Scale ℚ where
  ofNat n := n
  order := compare

theorem ofNat_eq (n : Nat) : (ofNat n : ℚ) = n := rfl

theorem clamp_eq (threshold : ℚ) : clamp threshold = max 0 (min threshold 1) := by
  simp only [clamp, ofNat_eq, Nat.cast_zero, Nat.cast_one]
  split <;> split <;> grind

theorem size_eq (s : Shape) : s.size = s.skeleton.length := by
  rw [Shape.size, Shape.skeleton, List.length_map]

theorem ofLists_eq {α : Type} [DecidableEq α] {a b : List α} (longer : max a.length b.length ≠ 0) :
    (ofLists a b : ℚ) = 1 - editDistance a b / (max a.length b.length : Nat) := by
  rw [ofLists, if_neg longer]
  rfl

theorem sizeBound_eq {m n : Nat} (longer : max m n ≠ 0) :
    (sizeBound m n : ℚ) = (min m n : Nat) / (max m n : Nat) := by
  rw [sizeBound, if_neg longer]
  rfl

/-- The lengths bound the similarity of two lists. -/
theorem ofLists_le {α : Type} [DecidableEq α] (a b : List α) :
    (ofLists a b : ℚ) ≤ sizeBound a.length b.length := by
  by_cases empty : max a.length b.length = 0
  · rw [ofLists, sizeBound, if_pos empty, if_pos empty]
  · have positive : (0 : ℚ) < (max a.length b.length : Nat) :=
      Nat.cast_pos.mpr (Nat.pos_of_ne_zero empty)
    have edits : max a.length b.length ≤ min a.length b.length + editDistance a b := by
      have := le_editDistance a b
      omega
    rw [ofLists_eq empty, sizeBound_eq empty, sub_le_iff_le_add, ← add_div, one_le_div positive]
    exact_mod_cast edits

/-- Of one node and six, the bound in scores is rounded down and the similarity up. -/
example : (sizeBound 1 6 : Score) < ofLists [0] [0, 1, 2, 3, 4, 5] := by decide +kernel

theorem sizeBound_self (n : Nat) : (sizeBound n n : ℚ) = 1 := by
  by_cases empty : max n n = 0
  · rw [sizeBound, if_pos empty]
    rfl
  · rw [sizeBound_eq empty, max_self, min_self]
    exact div_self (Nat.cast_ne_zero.mpr (max_self n ▸ empty))

/-- The sizes bound the similarity of two shapes, also where the hash decides it. -/
theorem ofShapes_le {a b : Shape} (apart : Blake3.Apart (hashed a.skeleton) (hashed b.skeleton)) :
    (ofShapes a b : ℚ) ≤ sizeBound a.size b.size := by
  rw [ofShapes, size_eq, size_eq]
  split
  · rename_i same
    rw [(Shape.skeleton_eq_iff apart).mp same, sizeBound_self]
    exact le_of_eq Nat.cast_one
  · exact ofLists_le a.skeleton b.skeleton

/-! ## The order of a listing -/

/-- The place of an entry in a listing: by descending similarity, and then by id. -/
def place (e : SymbolId × ℚ) : ℚᵒᵈ ×ₗ String :=
  toLex (OrderDual.toDual e.2, e.1)

section

variable {a b : SymbolId × ℚ}

theorem bestFirst_iff : bestFirst a b = true ↔ place a ≤ place b := by
  change ((compare b.2 a.2).then (compare a.1 b.1)).isLE = true ↔ _
  rw [Ordering.isLE_then_iff_or, compare_lt_iff_lt, compare_eq_iff_eq, eq_comm (a := b.2),
    Ordering.isLE_iff_ne_gt, compare_gt_iff_gt, not_lt, place, place,
    Prod.Lex.toLex_le_toLex]
  rfl

theorem place_injective (same : place a = place b) : a = b := by
  obtain ⟨similarity, id⟩ := Prod.mk.inj (toLex_inj.mp same)
  exact Prod.ext id (OrderDual.toDual_inj.mp similarity)

theorem place_lt : place a < place b ↔ b.2 < a.2 ∨ a.2 = b.2 ∧ a.1 < b.1 := by
  rw [place, place, Prod.Lex.toLex_lt_toLex]
  rfl

end

theorem bestFirst_total (a b : SymbolId × ℚ) : (bestFirst a b || bestFirst b a) = true := by
  rw [Bool.or_eq_true, bestFirst_iff, bestFirst_iff]
  exact le_total _ _

theorem bestFirst_trans (a b c : SymbolId × ℚ) (first : bestFirst a b = true)
    (second : bestFirst b c = true) : bestFirst a c = true :=
  bestFirst_iff.mpr ((bestFirst_iff.mp first).trans (bestFirst_iff.mp second))

/-- What is found stands in the order of the places. -/
theorem mergeSort_sorted (entries : List (SymbolId × ℚ)) :
    (entries.mergeSort bestFirst).Pairwise fun a b => place a ≤ place b :=
  (List.pairwise_mergeSort bestFirst_trans bestFirst_total entries).imp bestFirst_iff.mp

/-- Only what is listed decides of a listing. -/
theorem mergeSort_perm {entries others : List (SymbolId × ℚ)} (perm : entries.Perm others) :
    entries.mergeSort bestFirst = others.mergeSort bestFirst :=
  mergeSort_eq_of_perm bestFirst_trans bestFirst_total perm fun _ _ _ _ first second =>
    place_injective (le_antisymm (bestFirst_iff.mp first) (bestFirst_iff.mp second))

/-! ## The search -/

/-- Without rounding, a search finds the candidates whose similarity reaches the threshold between
    0 and 1, and no other, most similar first and equally similar ones by id, in whatever order the
    candidates are; for the sizes bound the similarity of any two shapes from above. -/
theorem find_exact {target : Symbol} {shape : Shape} (shaped : target.shape = some shape)
    {candidates : List Symbol} (distinct : (candidates.map (·.id)).Nodup) (threshold : ℚ)
    (apart : ∀ c ∈ candidates, ∀ other, c.shape = some other →
      Blake3.Apart (hashed shape.skeleton) (hashed other.skeleton)) :
    (∀ id score, (id, score) ∈ find target candidates threshold ↔
      ∃ c ∈ candidates, c.id = id ∧ Similar target shape c score ∧
        max 0 (min threshold 1) ≤ score) ∧
    (find target candidates threshold).Pairwise (fun a b => b.2 < a.2 ∨ a.2 = b.2 ∧ a.1 < b.1) ∧
    (∀ others : List Symbol, candidates.Perm others →
      find target others threshold = find target candidates threshold) ∧
    ∀ a b : Shape, Blake3.Apart (hashed a.skeleton) (hashed b.skeleton) →
      (ofShapes a b : ℚ) ≤ sizeBound a.size b.size := by
  rw [find_eq shaped]
  refine ⟨fun id score => ?_, ?_, fun others perm => ?_, fun a b => ofShapes_le⟩
  · rw [List.mem_mergeSort, mem_found, clamp_eq]
    constructor
    · rintro ⟨c, here, named, similar, enough, -⟩
      exact ⟨c, here, named, similar, enough⟩
    · rintro ⟨c, here, named, similar, enough⟩
      -- The similarity reaches the threshold, and the bound lies above it.
      refine ⟨c, here, named, similar, enough, fun other shaped' => ?_⟩
      obtain ⟨other', shaped'', measured⟩ := similar.measured
      cases shaped'.symm.trans shaped''
      have bound := ofShapes_le (apart c here other shaped')
      exact not_lt.mpr (enough.trans (measured ▸ bound))
  · have ids : (((found target shape candidates threshold).mergeSort bestFirst).map (·.1)).Nodup :=
      ((List.mergeSort_perm _ bestFirst).map (·.1)).nodup_iff.mpr (found_ids distinct)
    rw [List.Nodup, List.pairwise_map] at ids
    refine ((mergeSort_sorted _).and ids).imp fun {a b} ⟨before, differ⟩ => ?_
    exact place_lt.mp
      (before.lt_of_ne fun same => differ (congrArg Prod.fst (place_injective same)))
  · rw [find_eq shaped]
    exact mergeSort_perm (found_perm perm.symm)

/-- A function with a body, and one without. -/
def withBody : Shape :=
  ⟨[{ kind := .function, depth := 0 }, { kind := .block, depth := 1 }], false⟩

def withoutBody : Shape :=
  ⟨[{ kind := .function, depth := 0 }], false⟩

def functionOf (id : SymbolId) (shape : Shape) : Symbol :=
  { (default : Symbol) with id, kind := .function, shape := some shape }

def bodies : List Symbol :=
  [functionOf "c" withBody, functionOf "b" withoutBody, functionOf "a" withoutBody]

/-- Two functions are just as similar as is asked for, and as their sizes allow. -/
theorem bodies_found :
    let target := functionOf "c" withBody
    target.shape = some withBody ∧ (bodies.map (·.id)).Nodup ∧
      (∀ c ∈ bodies, ∀ other, c.shape = some other →
        Blake3.Apart (hashed withBody.skeleton) (hashed other.skeleton)) ∧
      (sizeBound 2 1 : ℚ) = 1 / 2 ∧ ("b", 1 / 2) ∈ find target bodies (1 / 2 : ℚ) ∧
      find target bodies.reverse (1 / 2 : ℚ) = find target bodies (1 / 2) := by
  intro target
  have distinct : (bodies.map (·.id)).Nodup := by decide
  have apart : ∀ c ∈ bodies, ∀ other, c.shape = some other →
      Blake3.Apart (hashed withBody.skeleton) (hashed other.skeleton) := by
    have differ : Blake3.Apart (hashed withBody.skeleton) (hashed withoutBody.skeleton) :=
      fun same => absurd same (by decide +kernel)
    intro c here other shaped
    simp only [bodies, List.mem_cons, List.not_mem_nil, or_false] at here
    rcases here with rfl | rfl | rfl <;> cases shaped
    · exact fun _ => rfl
    · exact differ
    · exact differ
  have shaped : target.shape = some withBody := rfl
  obtain ⟨finds, -, perm, -⟩ := find_exact shaped distinct (1 / 2) apart
  refine ⟨shaped, distinct, apart, by decide +kernel, ?_, perm _ bodies.reverse_perm.symm⟩
  refine (finds "b" (1 / 2)).mpr ⟨functionOf "b" withoutBody, by decide, rfl, ?_, by decide +kernel⟩
  exact ⟨by decide, rfl, .inl rfl, withoutBody, rfl, by decide +kernel⟩

end CodeSearch.Similarity
