import CodeSearch.Score
import Mathlib.Data.String.Basic
import Mathlib.Tactic.Common

/-! # Orders of scores

As numbers, scores are ordered but for what is not a number, which is not even below itself. Every
number has a place, and the order is that of the places. The order in which candidates are listed
is total: it goes by ranks and then by ids.
-/

namespace CodeSearch.Score

open Float.Model (UnpackedFloat)

/-! ## Places of numbers -/

/-- A place among the numbers: first by the kind of number, then by exponent and mantissa, which
    count backwards below zero. -/
structure Place where
  kind : Int
  exponent : Int := 0
  mantissa : Int := 0

/-- The place of a number. -/
def place? : UnpackedFloat → Option Place
  | .notANumber => none
  | .infinity .negative => some { kind := -2 }
  | .finite .negative m e _ => some ⟨-1, -e, -m⟩
  | .zero _ => some { kind := 0 }
  | .finite .positive m e _ => some ⟨1, e, m⟩
  | .infinity .positive => some { kind := 2 }

namespace Place

def order (p q : Place) : Ordering :=
  (compare p.kind q.kind).then ((compare p.exponent q.exponent).then (compare p.mantissa q.mantissa))

theorem order_isLE {p q : Place} : (p.order q).isLE = true ↔ p.kind < q.kind ∨ p.kind = q.kind ∧
    (p.exponent < q.exponent ∨ p.exponent = q.exponent ∧ p.mantissa ≤ q.mantissa) := by
  rw [order, Ordering.isLE_then_iff_or, Ordering.isLE_then_iff_or, Int.compare_eq_lt,
    Int.compare_eq_eq, Int.compare_eq_lt, Int.compare_eq_eq, Int.isLE_compare]

theorem order_swap (p q : Place) : (p.order q).swap = q.order p := by
  rw [order, order, Ordering.swap_then, Ordering.swap_then, Int.compare_swap, Int.compare_swap,
    Int.compare_swap]

end Place

theorem compare_neg (a b : Int) : compare (-a) (-b) = (compare a b).swap := by
  rw [Int.compare_swap]
  cases order : compare b a with
  | lt =>
      rw [Int.compare_eq_lt] at order ⊢
      omega
  | eq =>
      rw [Int.compare_eq_eq] at order ⊢
      omega
  | gt =>
      rw [Int.compare_eq_gt] at order ⊢
      omega

theorem compare_natCast (m n : Nat) : compare (m : Int) (n : Int) = compare m n := by
  cases order : compare m n with
  | lt =>
      rw [Nat.compare_eq_lt] at order
      rw [Int.compare_eq_lt]
      omega
  | eq =>
      rw [Nat.compare_eq_eq] at order
      rw [Int.compare_eq_eq]
      omega
  | gt =>
      rw [Nat.compare_eq_gt] at order
      rw [Int.compare_eq_gt]
      omega

/-- Numbers are compared by their places. -/
theorem compare_eq (a b : UnpackedFloat) :
    a.compare b = (place? a).bind fun p => (place? b).map fun q => p.order q := by
  cases a with
  | notANumber => rfl
  | zero s =>
      cases b with
      | notANumber => rfl
      | zero t => rfl
      | infinity t => cases t <;> rfl
      | finite t m e positive => cases t <;> rfl
  | infinity s =>
      cases b with
      | notANumber => cases s <;> rfl
      | zero t => cases s <;> rfl
      | infinity t => cases s <;> cases t <;> rfl
      | finite t m e positive => cases s <;> cases t <;> rfl
  | finite s m e positive =>
      cases b with
      | notANumber => cases s <;> rfl
      | zero t => cases s <;> rfl
      | infinity t => cases s <;> cases t <;> rfl
      | finite t m' e' positive' =>
          cases s with
          | positive =>
              cases t with
              | negative => rfl
              | positive =>
                  change some ((compare e e').then (compare m m')) = _
                  rw [← compare_natCast]
                  rfl
          | negative =>
              cases t with
              | positive => rfl
              | negative =>
                  change some ((compare e e').then (compare m m')).swap = _
                  rw [Ordering.swap_then, ← compare_natCast, ← compare_neg, ← compare_neg]
                  rfl

/-! ## The order of numbers -/

/-- The place of a score that is a number. -/
def placed (x : Score) : Option Place :=
  place? x.toModel.unpack

section

variable {a b c : Score}

theorem number_le_iff : a ≤ b ↔
    ∃ p q, placed a = some p ∧ placed b = some q ∧ (p.order q).isLE = true := by
  have same : a ≤ b ↔ (a.toModel.unpack.compare b.toModel.unpack).any (·.isLE) = true := by
    change decide (a.toModel.unpack.le b.toModel.unpack = true) = true ↔ _
    rw [decide_eq_true_iff]
    rfl
  rw [same, compare_eq, Option.any_eq_true]
  simp only [Option.bind_eq_some_iff, Option.map_eq_some_iff]
  constructor
  · rintro ⟨order, ⟨p, hp, q, hq, rfl⟩, le⟩
    exact ⟨p, q, hp, hq, le⟩
  · rintro ⟨p, q, hp, hq, le⟩
    exact ⟨p.order q, ⟨p, hp, q, hq, rfl⟩, le⟩

theorem number_lt_iff : a < b ↔ ∃ p q, placed a = some p ∧ placed b = some q ∧ p.order q = .lt := by
  have same : a < b ↔ (a.toModel.unpack.compare b.toModel.unpack == some .lt) = true := by
    change decide (a.toModel.unpack.lt b.toModel.unpack = true) = true ↔ _
    rw [decide_eq_true_iff]
    rfl
  rw [same, compare_eq, beq_iff_eq, Option.bind_eq_some_iff]
  simp only [Option.map_eq_some_iff]
  constructor
  · rintro ⟨p, hp, q, hq, lt⟩
    exact ⟨p, q, hp, hq, lt⟩
  · rintro ⟨p, q, hp, hq, lt⟩
    exact ⟨p, hp, q, hq, lt⟩

theorem number_le_trans (first : a ≤ b) (second : b ≤ c) : a ≤ c := by
  obtain ⟨p, q, hp, hq, pq⟩ := number_le_iff.mp first
  obtain ⟨q', r, hq', hr, qr⟩ := number_le_iff.mp second
  rw [hq] at hq'
  cases hq'
  refine number_le_iff.mpr ⟨p, r, hp, hr, ?_⟩
  rw [Place.order_isLE] at *
  omega

theorem number_le_of_lt (h : a < b) : a ≤ b := by
  obtain ⟨p, q, hp, hq, pq⟩ := number_lt_iff.mp h
  exact number_le_iff.mpr ⟨p, q, hp, hq, by rw [pq]; rfl⟩

/-- Whether a score is a number. -/
def IsNumber (x : Score) : Prop :=
  x ≤ x

theorem isNumber_iff : IsNumber a ↔ ∃ p, placed a = some p := by
  rw [IsNumber, number_le_iff]
  constructor
  · rintro ⟨p, -, hp, -, -⟩
    exact ⟨p, hp⟩
  · rintro ⟨p, hp⟩
    refine ⟨p, p, hp, hp, ?_⟩
    rw [Place.order_isLE]
    omega

theorem isNumber_left (h : a ≤ b) : IsNumber a := by
  obtain ⟨p, q, hp, -, -⟩ := number_le_iff.mp h
  exact isNumber_iff.mpr ⟨p, hp⟩

theorem number_le_of_not_lt (ha : IsNumber a) (hb : IsNumber b) (h : ¬ a < b) : b ≤ a := by
  obtain ⟨p, hp⟩ := isNumber_iff.mp ha
  obtain ⟨q, hq⟩ := isNumber_iff.mp hb
  refine number_le_iff.mpr ⟨q, p, hq, hp, ?_⟩
  rw [← Place.order_swap]
  cases order : p.order q with
  | lt => exact absurd (number_lt_iff.mpr ⟨p, q, hp, hq, order⟩) h
  | eq => rfl
  | gt => rfl

end

theorem number_lt_asymm {a b : Score} (h : a < b) : ¬b < a := by
  obtain ⟨p, q, hp, hq, less⟩ := number_lt_iff.mp h
  intro other
  obtain ⟨q', p', hq', hp', more⟩ := number_lt_iff.mp other
  rw [hp] at hp'
  rw [hq] at hq'
  cases hp'
  cases hq'
  rw [← Place.order_swap, less] at more
  cases more

theorem placed_zero : placed 0 = some { kind := 0 } := by rfl

theorem place_pack_notANumber : place? (Float32.Model.pack .notANumber).unpack = none := by rfl

theorem place_pack_zero (s : UnpackedFloat.Sign) :
    place? (Float32.Model.pack (.zero s)).unpack = some { kind := 0 } := by
  cases s with
  | positive => rfl
  | negative => rfl

/-- Nothing of something is nothing, or no number. -/
theorem placed_zero_div (x : Score) :
    placed (Float32.ofNat 0 / x) = none ∨ placed (Float32.ofNat 0 / x) = some { kind := 0 } := by
  have zero : (Float32.ofNat 0).toModel.unpack = .zero .positive := by rfl
  have quotient : placed (Float32.ofNat 0 / x) = place? (Float32.Model.pack
      (UnpackedFloat.div .binary32 (Float32.ofNat 0).toModel.unpack x.toModel.unpack)).unpack := rfl
  rw [quotient, zero]
  cases x.toModel.unpack with
  | notANumber => exact .inl place_pack_notANumber
  | zero s => exact .inl place_pack_notANumber
  | infinity s => exact .inr (place_pack_zero _)
  | finite s m e positive => exact .inr (place_pack_zero _)

theorem not_lt_zero_div {a : Score} (positive : 0 < a) (x : Score) : ¬a < Float32.ofNat 0 / x := by
  intro less
  rcases placed_zero_div x with none | zero
  · obtain ⟨-, q, -, hq, -⟩ := number_lt_iff.mp less
    rw [none] at hq
    cases hq
  · obtain ⟨p, q, hp, hq, order⟩ := number_lt_iff.mp less
    rw [zero, ← placed_zero] at hq
    exact number_lt_asymm positive (number_lt_iff.mpr ⟨p, q, hp, hq, order⟩)

theorem zero_le_zero : (0 : Score) ≤ 0 := by decide +kernel

theorem zero_le_one : (0 : Score) ≤ 1 := by decide +kernel

/-- What is brought between 0 and 1 is not negative, unless it is no number. -/
theorem zero_le_clamp {x : Score} (h : IsNumber (clamp x 0 1)) : 0 ≤ clamp x 0 1 := by
  by_cases above : 1 < (if x < 0 then 0 else x)
  · rw [clamp, if_pos above]
    exact zero_le_one
  · rw [clamp, if_neg above] at h ⊢
    by_cases below : x < 0
    · rw [if_pos below]
      exact zero_le_zero
    · rw [if_neg below] at h ⊢
      exact number_le_of_not_lt h zero_le_zero below

/-! ## The order of a listing -/

section

variable {a b c : String × Score}

theorem bestFirst_iff : bestFirst a b = true ↔
    b.2.rank < a.2.rank ∨ a.2.rank = b.2.rank ∧ a.1 ≤ b.1 := by
  unfold bestFirst
  split
  · rename_i same
    rw [Bool.not_eq_true', decide_eq_false_iff_not, not_lt]
    constructor
    · exact fun le => .inr ⟨same, le⟩
    · rintro (more | ⟨-, le⟩)
      · exact absurd more (by omega)
      · exact le
  · rename_i different
    rw [decide_eq_true_iff]
    constructor
    · exact .inl
    · rintro (more | ⟨same, -⟩)
      · exact more
      · exact absurd same different

theorem bestFirst_total (a b : String × Score) : (bestFirst a b || bestFirst b a) = true := by
  rw [Bool.or_eq_true, bestFirst_iff, bestFirst_iff]
  rcases lt_trichotomy a.2.rank b.2.rank with less | same | more
  · exact .inr (.inl less)
  · rcases le_total a.1 b.1 with le | ge
    · exact .inl (.inr ⟨same, le⟩)
    · exact .inr (.inr ⟨same.symm, ge⟩)
  · exact .inl (.inl more)

theorem bestFirst_trans (a b c : String × Score) (first : bestFirst a b = true)
    (second : bestFirst b c = true) : bestFirst a c = true := by
  rw [bestFirst_iff] at *
  rcases first with more | ⟨same, le⟩
  · rcases second with more' | ⟨same', -⟩
    · exact .inl (more'.trans more)
    · exact .inl (same' ▸ more)
  · rcases second with more' | ⟨same', le'⟩
    · exact .inl (same ▸ more')
    · exact .inr ⟨same.trans same', le.trans le'⟩

theorem bestFirst_antisymm (first : bestFirst a b = true) (second : bestFirst b a = true) :
    a.1 = b.1 := by
  rw [bestFirst_iff] at first second
  rcases first with more | ⟨same, le⟩
  · rcases second with more' | ⟨same', -⟩
    · exact absurd more' more.asymm
    · exact absurd same' more.ne
  · rcases second with more' | ⟨-, ge⟩
    · exact absurd same more'.ne
    · exact le_antisymm le ge

end

end CodeSearch.Score
