import CodeSearch.Proofs.Score
import Mathlib

/-! # Rounded differences

Every number is a multiple of the least positive one, and so is the exact difference of one and a
number. Rounding such a multiple keeps the order, since the numbers that are represented are counted
by their bits. So the greater of two numbers leaves the smaller difference, or the same one.
-/

namespace CodeSearch.Rounding

open Float.Model Float.Model.UnpackedFloat

/-! ## Halves and bits -/

/-- `m / 2 ^ n` rounded to the nearest number, and to the even one of two. -/
def nearest (m n : Nat) : Nat :=
  if 2 * (m % 2 ^ n) < 2 ^ n then m / 2 ^ n
  else if 2 * (m % 2 ^ n) = 2 ^ n then m / 2 ^ n + m / 2 ^ n % 2
  else m / 2 ^ n + 1

/-- What is left of a mantissa in a shift to the right, with the two bits that tell of the rest. -/
theorem shift_exact (m n : Nat) :
    ExtendedMantissa.ofMantissaAndAccuracy m .exact >>> n =
      ⟨m / 2 ^ n, decide (2 ^ n ≤ 2 * (m % 2 ^ n)), decide (2 * (m % 2 ^ n) % 2 ^ n ≠ 0)⟩ := by
  change n.repeat ExtendedMantissa.shiftRightOne _ = _
  induction n with
  | zero => simp [Nat.repeat, ExtendedMantissa.ofMantissaAndAccuracy, Nat.mod_one]
  | succ n ih =>
      have below : m % 2 ^ n < 2 ^ n := Nat.mod_lt _ (Nat.two_pow_pos n)
      have double : 2 ^ (n + 1) = 2 * 2 ^ n := Nat.pow_succ'
      have split : m % 2 ^ (n + 1) = m % 2 ^ n + 2 ^ n * (m / 2 ^ n % 2) := Nat.mod_pow_succ
      rw [Nat.repeat, ih]
      simp only [ExtendedMantissa.shiftRightOne, ExtendedMantissa.mk.injEq]
      refine ⟨?_, ?_, ?_⟩
      · rw [Nat.div_div_eq_div_mul, Nat.pow_succ]
      · rcases Nat.mod_two_eq_zero_or_one (m / 2 ^ n) with even | odd
        · rw [split, even, double]
          simpa using below
        · rw [split, odd, double]
          simp
      · have rest : 2 * (m % 2 ^ (n + 1)) % 2 ^ (n + 1) = 2 * (m % 2 ^ n) := by
          rw [double, Nat.mul_mod_mul_left, Nat.mod_mul_left_mod]
        rw [rest, ← Bool.decide_or, decide_eq_decide]
        by_cases half : 2 ^ n ≤ 2 * (m % 2 ^ n)
        · have positive := Nat.two_pow_pos n
          simp only [half, true_or, true_iff]
          omega
        · rw [Nat.mod_eq_of_lt (Nat.lt_of_not_le half)]
          simp [half]

theorem rounded_shift (m n : Nat) :
    (ExtendedMantissa.ofMantissaAndAccuracy m .exact >>> n).roundedMantissa = nearest m n := by
  have below : m % 2 ^ n < 2 ^ n := Nat.mod_lt _ (Nat.two_pow_pos n)
  rw [shift_exact, nearest, ExtendedMantissa.roundedMantissa]
  rcases Nat.lt_trichotomy (2 * (m % 2 ^ n)) (2 ^ n) with less | same | more
  · have up : ¬2 ^ n ≤ 2 * (m % 2 ^ n) := Nat.not_le.mpr less
    rw [if_pos less, decide_eq_false up]
    cases decide (2 * (m % 2 ^ n) % 2 ^ n ≠ 0) with
    | true => rfl
    | false => rfl
  · have exact : ¬2 * (m % 2 ^ n) % 2 ^ n ≠ 0 := by rw [same, Nat.mod_self]; simp
    rw [if_neg (by omega), if_pos same, decide_eq_true same.ge, decide_eq_false exact]
    rfl
  · have rest : 2 * (m % 2 ^ n) % 2 ^ n ≠ 0 := by
      rw [Nat.mod_eq_sub_mod more.le, Nat.mod_eq_of_lt (by omega)]
      omega
    rw [if_neg (by omega), if_neg more.ne', decide_eq_true more.le, decide_eq_true rest]
    rfl

theorem le_nearest (m n : Nat) : m / 2 ^ n ≤ nearest m n := by
  unfold nearest
  split
  · exact Nat.le_refl _
  · split <;> omega

theorem nearest_le (m n : Nat) : nearest m n ≤ m / 2 ^ n + 1 := by
  unfold nearest
  split
  · omega
  · split <;> omega

theorem nearest_mono {a b : Nat} (h : a ≤ b) (n : Nat) : nearest a n ≤ nearest b n := by
  rcases Nat.lt_or_eq_of_le (Nat.div_le_div_right h : a / 2 ^ n ≤ b / 2 ^ n) with less | same
  · exact (nearest_le a n).trans (less.trans_le (le_nearest b n))
  · have remainders : a % 2 ^ n ≤ b % 2 ^ n := by
      have ha := Nat.div_add_mod a (2 ^ n)
      have hb := Nat.div_add_mod b (2 ^ n)
      rw [same] at ha
      omega
    unfold nearest
    rw [same]
    split_ifs <;> omega

theorem nearest_scale (m n k : Nat) : nearest (m * 2 ^ k) (n + k) = nearest m n := by
  have positive : 0 < 2 ^ k := Nat.two_pow_pos k
  have quotient : m * 2 ^ k / 2 ^ (n + k) = m / 2 ^ n := by
    rw [Nat.pow_add, Nat.mul_div_mul_right _ _ positive]
  have remainder : m * 2 ^ k % 2 ^ (n + k) = m % 2 ^ n * 2 ^ k := by
    rw [Nat.pow_add, Nat.mul_mod_mul_right]
  have less : 2 * (m % 2 ^ n * 2 ^ k) < 2 ^ n * 2 ^ k ↔ 2 * (m % 2 ^ n) < 2 ^ n := by
    rw [← Nat.mul_assoc, Nat.mul_lt_mul_right positive]
  have same : 2 * (m % 2 ^ n * 2 ^ k) = 2 ^ n * 2 ^ k ↔ 2 * (m % 2 ^ n) = 2 ^ n := by
    rw [← Nat.mul_assoc, Nat.mul_left_inj (Nat.ne_of_gt positive)]
  unfold nearest
  rw [quotient, remainder, Nat.pow_add]
  simp only [less, same]

/-! ## Codes

A finite number is `m * 2 ^ (k - 149)`, where the mantissa has all 24 bits unless the exponent is
the least one. In order of magnitude, such numbers are counted by `k * 2 ^ 23 + m`, and this is what
the bits say.
-/

/-- A mantissa and an exponent as they are stored. -/
structure Canonical (m k : Nat) : Prop where
  below : m < 2 ^ 24
  full : 0 < k → 2 ^ 23 ≤ m

def code (m k : Nat) : Nat :=
  k * 2 ^ 23 + m

theorem Canonical.le_of_code_le {m k m' k' : Nat} (h : Canonical m k) (h' : Canonical m' k')
    (le : code m k ≤ code m' k') : m * 2 ^ k ≤ m' * 2 ^ k' := by
  have below := h.below
  have below' := h'.below
  unfold code at le
  rcases Nat.lt_trichotomy k k' with less | rfl | more
  · have full := h'.full (by omega)
    calc
      m * 2 ^ k ≤ 2 ^ 24 * 2 ^ k := Nat.mul_le_mul_right _ below.le
      _ = 2 ^ 23 * 2 ^ (k + 1) := by ring
      _ ≤ m' * 2 ^ k' := Nat.mul_le_mul full (Nat.pow_le_pow_right (by decide) less)
  · exact Nat.mul_le_mul_right _ (by omega)
  · have full := h.full (by omega)
    omega

theorem Canonical.pos {m k : Nat} (h : Canonical m k) (coded : 0 < code m k) : 0 < m := by
  rcases Nat.eq_zero_or_pos k with rfl | high
  · unfold code at coded
    omega
  · exact lt_of_lt_of_le (by decide) (h.full high)

/-- The exponent of a number of so many units. -/
def exponent (w : Nat) : Nat :=
  w.log2 - 23

/-- The code of a number that is rounded. -/
def rounded (w : Nat) : Nat :=
  code (nearest w (exponent w)) (exponent w)

theorem nearest_bounds {w : Nat} (positive : 0 < w) : nearest w (exponent w) ≤ 2 ^ 24 ∧
    (0 < exponent w → 2 ^ 23 ≤ nearest w (exponent w)) := by
  have least : 2 ^ w.log2 ≤ w := Nat.log2_self_le positive.ne'
  have most : w < 2 ^ (w.log2 + 1) := Nat.lt_log2_self
  constructor
  · have quotient : w / 2 ^ exponent w < 2 ^ 24 := by
      rw [Nat.div_lt_iff_lt_mul (Nat.two_pow_pos _), ← Nat.pow_add]
      exact most.trans_le (Nat.pow_le_pow_right (by decide) (by unfold exponent; omega))
    exact (nearest_le w _).trans quotient
  · intro high
    refine le_trans ?_ (le_nearest w _)
    rw [Nat.le_div_iff_mul_le (Nat.two_pow_pos _), ← Nat.pow_add]
    exact (Nat.pow_le_pow_right (by decide) (by unfold exponent at *; omega)).trans least

theorem rounded_zero : rounded 0 = 0 := by decide

theorem rounded_mono {a b : Nat} (h : a ≤ b) : rounded a ≤ rounded b := by
  rcases Nat.eq_zero_or_pos a with rfl | positive
  · rw [rounded_zero]
    exact Nat.zero_le _
  have logs : a.log2 ≤ b.log2 :=
    (Nat.le_log2 (positive.trans_le h).ne').mpr ((Nat.log2_self_le positive.ne').trans h)
  have exponents : exponent a ≤ exponent b := Nat.sub_le_sub_right logs 23
  unfold rounded code
  rcases Nat.lt_or_eq_of_le exponents with less | same
  · have low := (nearest_bounds positive).1
    have high := (nearest_bounds (positive.trans_le h)).2 (by omega)
    omega
  · rw [same]
    exact Nat.add_le_add_left (nearest_mono h _) _


theorem log2_scale {m : Nat} (positive : 0 < m) (k : Nat) : (m * 2 ^ k).log2 = m.log2 + k := by
  have product : 0 < m * 2 ^ k := Nat.mul_pos positive (Nat.two_pow_pos k)
  refine (Nat.log2_eq_iff product.ne').mpr ⟨?_, ?_⟩
  · rw [Nat.pow_add]
    exact Nat.mul_le_mul_right _ (Nat.log2_self_le positive.ne')
  · rw [Nat.add_right_comm, Nat.pow_add]
    exact Nat.mul_lt_mul_of_pos_right Nat.lt_log2_self (Nat.two_pow_pos k)

/-! ## Rounding a number of units -/

theorem targetExponent_eq {m : Nat} (k : Nat) :
    Format.binary32.targetExponent (totalExponent m (k - 149)) =
      ((m.log2 + k - 23 : Nat) : Int) - 149 := by
  have bits : Format.binary32.mantissaBits = 24 := rfl
  have least : Format.binary32.minExponent = -149 := rfl
  rw [Format.targetExponent, totalExponent, bits, least]
  omega

theorem shiftToTarget_eq (m k : Nat) : shiftToTargetExponent .binary32 m (k - 149) .exact =
    (ExtendedMantissa.ofMantissaAndAccuracy m .exact >>> (m.log2 + k - 23 - k),
      ((max k (m.log2 + k - 23) : Nat) : Int) - 149) := by
  have amount :
      (((m.log2 + k - 23 : Nat) : Int) - 149 - (k - 149)).toNat = m.log2 + k - 23 - k := by
    omega
  simp only [shiftToTargetExponent, targetExponent_eq, shiftToExponent, amount]
  refine Prod.ext rfl ?_
  simp only
  omega

/-- Rounding a mantissa may leave it with one bit too many, which the exponent takes up. -/
theorem shiftToTarget_rounded {r t : Nat} (most : r ≤ 2 ^ 24) (full : 0 < t → 2 ^ 23 ≤ r) :
    ∃ m' k' : Nat, (shiftToTargetExponent .binary32 r (t - 149) .exact).1.mantissa = m' ∧
      (shiftToTargetExponent .binary32 r (t - 149) .exact).2 = k' - 149 ∧
      Canonical m' k' ∧ code m' k' = code r t := by
  simp only [shiftToTarget_eq, shift_exact]
  rcases Nat.lt_or_eq_of_le most with below | rfl
  · have bits : r.log2 + t - 23 ≤ t := by
      by_cases zero : r = 0
      · subst zero
        simp
      · have := (Nat.log2_lt zero).mpr below
        omega
    refine ⟨r, t, ?_, ?_, ⟨below, full⟩, rfl⟩
    · simp [bits]
    · rw [max_eq_left bits]
  · have bits : (2 ^ 24).log2 + t - 23 = t + 1 := by
      rw [Nat.log2_two_pow]
      omega
    refine ⟨2 ^ 23, t + 1, ?_, ?_, ⟨by decide, fun _ => Nat.le_refl _⟩, ?_⟩
    · rw [bits, Nat.add_sub_cancel_left]
      rfl
    · rw [bits, max_eq_right (Nat.le_succ t)]
    · unfold code
      omega

/-- A number of units is rounded to the number of its code. -/
theorem round_eq (s : Sign) {m : Nat} (positive : 0 < m) (k : Nat) :
    ∃ m' k' : Nat, ∃ nonzero : 0 < m',
      UnpackedFloat.round .binary32 s m (k - 149) = .finite s m' (k' - 149) nonzero ∧
      Canonical m' k' ∧ code m' k' = rounded (m * 2 ^ k) := by
  have units : 0 < m * 2 ^ k := Nat.mul_pos positive (Nat.two_pow_pos k)
  have target : exponent (m * 2 ^ k) = m.log2 + k - 23 := by rw [exponent, log2_scale positive]
  generalize same : exponent (m * 2 ^ k) = t at target
  -- the mantissa is first given enough bits below its point
  have amount : ((k : Int) - 149 - ((t : Nat) - 149)).toNat = k - t := by omega
  have lowered : (k : Int) - 149 - ((k - t : Nat) : Int) = ((min k t : Nat) : Int) - 149 := by omega
  have scaled : m * 2 ^ k = m * 2 ^ (k - t) * 2 ^ min k t := by
    rw [Nat.mul_assoc, ← Nat.pow_add]
    congr 2
    omega
  have bits : (m * 2 ^ (k - t)).log2 + min k t - 23 = t := by
    rw [log2_scale positive]
    omega
  have first : nearest (m * 2 ^ (k - t)) (t - min k t) = nearest (m * 2 ^ k) t := by
    rw [scaled, ← nearest_scale _ (t - min k t) (min k t)]
    congr 1
    omega
  obtain ⟨most, full⟩ := nearest_bounds units
  rw [same] at most full
  obtain ⟨m', k', mantissa, power, canonical, coded⟩ := shiftToTarget_rounded most full
  have coded : code m' k' = rounded (m * 2 ^ k) := by rw [coded, rounded, same]
  have least : 0 < rounded 1 := by decide +kernel
  have nonzero : 0 < m' := canonical.pos (coded ▸ least.trans_le (rounded_mono units))
  refine ⟨m', k', nonzero, ?_, canonical, coded⟩
  simp only [UnpackedFloat.round, targetExponent_eq, ← target, decreaseExponent, amount, lowered,
    Nat.shiftLeft_eq, roundWithAccuracy, shiftToTarget_eq (m * 2 ^ (k - t)), bits,
    rounded_shift, first, max_eq_right (Nat.min_le_right k t), mantissa, power, dif_neg nonzero.ne']


/-! ## Bits -/

/-- Of all codes, that of what is infinite. -/
def top : Nat :=
  255 * 2 ^ 23

theorem packComponents_toNat (s : Sign) (e : BitVec 8) (m : BitVec 23) :
    (packComponents .binary32 s e m).toNat =
      s.toBitVec.toNat * 2 ^ 31 + (e.toNat * 2 ^ 23 + m.toNat) := by
  rw [packComponents, BitVec.toNat_append, BitVec.toNat_append,
    ← Nat.shiftLeft_add_eq_or_of_lt e.isLt, ← Nat.shiftLeft_add_eq_or_of_lt m.isLt,
    Nat.shiftLeft_eq, Nat.shiftLeft_eq]
  ring

theorem packedInfinity_toNat (s : Sign) :
    (packedInfinity .binary32 s).toNat = s.toBitVec.toNat * 2 ^ 31 + top := by
  rw [packedInfinity, packComponents_toNat]
  rfl

theorem packedZero_toNat (s : Sign) :
    (packedZero .binary32 s).toNat = s.toBitVec.toNat * 2 ^ 31 := by
  rw [packedZero, packComponents_toNat]
  simp

theorem pack_finite_toNat (s : Sign) {m k : Nat} (h : Canonical m k) (nonzero : 0 < m) :
    (UnpackedFloat.pack .binary32 (.finite s m (k - 149) nonzero)).toNat =
      s.toBitVec.toNat * 2 ^ 31 + min (code m k) top := by
  have below := h.below
  have biased : ((k : Int) - 149 + (127 : Nat) + (23 : Nat)).toNat = k + 1 := by omega
  have bias : Format.binary32.exponentBias = 127 := rfl
  have bits : Format.binary32.mantissaBits = 24 := rfl
  simp only [UnpackedFloat.pack, bias, biased, bits]
  by_cases high : 2 ^ 8 ≤ k + 1 + 1
  · have full := h.full (by omega)
    have beyond : top ≤ code m k := by
      unfold top code
      omega
    rw [if_pos high, packedInfinity_toNat, min_eq_right beyond]
  · have finite : code m k ≤ top := by
      unfold top code
      omega
    rw [if_neg high, min_eq_left finite]
    by_cases full : 2 ^ 23 ≤ m
    · have log : m.log2 + 1 = 24 := by
        rw [(Nat.log2_eq_iff nonzero.ne').mpr ⟨full, below⟩]
      have first : (k + 1) % 2 ^ 8 = k + 1 := Nat.mod_eq_of_lt (by omega)
      have last : m % 2 ^ 23 = m - 2 ^ 23 := by omega
      rw [if_pos log, packComponents_toNat, BitVec.toNat_ofNat, BitVec.toNat_ofNat, first, last]
      unfold code
      omega
    · have log : ¬m.log2 + 1 = 24 := by
        have := (Nat.log2_lt nonzero.ne').mpr (Nat.lt_of_not_le full)
        omega
      have least : k = 0 := by
        by_contra positive
        exact full (h.full (Nat.pos_of_ne_zero positive))
      rw [if_neg log, packComponents_toNat, BitVec.toNat_ofNat, BitVec.toNat_ofNat, least,
        Nat.mod_eq_of_lt (Nat.lt_of_not_le full)]
      simp [code]

section

variable (b : BitVec 32)

theorem unpackMantissa_toNat : (@unpackMantissa .binary32 b).toNat = b.toNat % 2 ^ 23 := by
  simp [unpackMantissa]

theorem unpackExponent_toNat :
    (@unpackExponent .binary32 b).toNat = b.toNat / 2 ^ 23 % 2 ^ 8 := by
  simp [unpackExponent, Nat.shiftRight_eq_div_pow]

theorem unpackSign_toNat : (@unpackSign .binary32 b).toNat = b.toNat / 2 ^ 31 % 2 := by
  simp [unpackSign, Nat.shiftRight_eq_div_pow]

/-- The sign that the bits of a score say. -/
def signOf : Sign :=
  .ofBitVec (@unpackSign .binary32 b)

theorem unpack_eq : UnpackedFloat.unpack .binary32 b =
    if b.toNat / 2 ^ 23 % 2 ^ 8 = 255 then
      if b.toNat % 2 ^ 23 = 0 then .infinity (signOf b) else .notANumber
    else if b.toNat / 2 ^ 23 % 2 ^ 8 = 0 then
      if bare : b.toNat % 2 ^ 23 = 0 then .zero (signOf b)
      else .finite (signOf b) (b.toNat % 2 ^ 23) (-149) (Nat.pos_of_ne_zero bare)
    else .finite (signOf b) (2 ^ 23 + b.toNat % 2 ^ 23)
      ((b.toNat / 2 ^ 23 % 2 ^ 8 : Nat) - 150) (Nat.add_pos_left (by decide) _) := by
  have isOnes : @unpackExponent .binary32 b = -1#_ ↔ b.toNat / 2 ^ 23 % 2 ^ 8 = 255 := by
    rw [BitVec.toNat_eq, unpackExponent_toNat]
    rfl
  have isZeros : @unpackExponent .binary32 b = 0#_ ↔ b.toNat / 2 ^ 23 % 2 ^ 8 = 0 := by
    rw [BitVec.toNat_eq, unpackExponent_toNat]
    rfl
  have isBare : @unpackMantissa .binary32 b = 0#_ ↔ b.toNat % 2 ^ 23 = 0 := by
    rw [BitVec.toNat_eq, unpackMantissa_toNat]
    rfl
  have joined : (1#1 ++ @unpackMantissa .binary32 b).toNat = 2 ^ 23 + b.toNat % 2 ^ 23 := by
    rw [BitVec.toNat_append, ← Nat.shiftLeft_add_eq_or_of_lt (BitVec.isLt _), unpackMantissa_toNat]
    rfl
  have bias : Format.binary32.exponentBias = 127 := rfl
  simp only [UnpackedFloat.unpack, isOnes, isZeros, isBare, joined, unpackMantissa_toNat,
    unpackExponent_toNat, bias]
  split_ifs with ones bare zeros bare
  · rfl
  · rfl
  · rfl
  · simp only [zeros]
    rfl
  · rfl

/-- What the bits of a score say. -/
theorem unpack_cases : ∃ (s : Sign) (a : Nat), b.toNat = s.toBitVec.toNat * 2 ^ 31 + a ∧ (
    a = 0 ∧ UnpackedFloat.unpack .binary32 b = .zero s ∨
    a = top ∧ UnpackedFloat.unpack .binary32 b = .infinity s ∨
    UnpackedFloat.unpack .binary32 b = .notANumber ∨
    ∃ m k : Nat, ∃ nonzero : 0 < m,
      UnpackedFloat.unpack .binary32 b = .finite s m (k - 149) nonzero ∧
      Canonical m k ∧ code m k = a ∧ a < top) := by
  have small : b.toNat < 2 ^ 32 := b.isLt
  rw [unpack_eq]
  generalize exponent : b.toNat / 2 ^ 23 % 2 ^ 8 = e
  generalize mantissa : b.toNat % 2 ^ 23 = r
  have high : e < 256 := exponent ▸ Nat.mod_lt _ (by decide)
  have low : r < 2 ^ 23 := mantissa ▸ Nat.mod_lt _ (by decide)
  refine ⟨signOf b, e * 2 ^ 23 + r, ?_, ?_⟩
  · rw [signOf, Sign.toBitVec_ofBitVec, unpackSign_toNat]
    omega
  unfold code top
  split_ifs with ones bare zeros bare
  · exact .inr (.inl ⟨by omega, rfl⟩)
  · exact .inr (.inr (.inl rfl))
  · exact .inl ⟨by omega, rfl⟩
  · exact .inr (.inr (.inr ⟨r, 0, Nat.pos_of_ne_zero bare, rfl, ⟨by omega, by omega⟩, by omega,
      by omega⟩))
  · have power : ((e : Int) - 150) = (e - 1 : Nat) - 149 := by omega
    exact .inr (.inr (.inr ⟨2 ^ 23 + r, e - 1, by omega, by simp only [power],
      ⟨by omega, by omega⟩, by omega, by omega⟩))

end

/-! ## Ranks and units -/

theorem rank_injective {a b : Score} (same : a.rank = b.rank) : a = b := by
  have bits : a.toBits.toNat = b.toBits.toNat := by
    simp only [Score.rank] at same
    split_ifs at same <;> omega
  exact Float32.toBits_inj.mp (UInt32.toNat_inj.mp bits)

/-- The rank of the bits of a sign and a code. -/
def signedRank (s : Sign) (a : Nat) : Int :=
  match s with
  | .positive => a
  | .negative => -a - 1

theorem rank_eq {x : Score} {s : Sign} {a : Nat}
    (bits : x.toBits.toNat = s.toBitVec.toNat * 2 ^ 31 + a) (small : a ≤ top) :
    x.rank = signedRank s a := by
  unfold top at small
  unfold Score.rank
  rw [bits]
  cases s with
  | positive =>
      have sign : Sign.positive.toBitVec.toNat = 0 := rfl
      simp only [sign, signedRank]
      rw [if_pos (by simp; omega)]
      omega
  | negative =>
      have sign : Sign.negative.toBitVec.toNat = 1 := rfl
      simp only [sign, signedRank]
      rw [if_neg (by simp)]
      simp

/-- The sign, mantissa and exponent of a number. Those of what is infinite come next after those of
    the greatest finite number. -/
structure Stored (x : Score) (s : Sign) (m k : Nat) : Prop where
  canonical : Canonical m k
  bits : x.toBits.toNat = s.toBitVec.toNat * 2 ^ 31 + code m k
  small : code m k ≤ top

/-- A number in units of the least positive one. -/
def units (s : Sign) (m k : Nat) : Int :=
  s.apply (m * 2 ^ k : Nat)

theorem Stored.units_le {x y : Score} {s t : Sign} {m k m' k' : Nat} (hx : Stored x s m k)
    (hy : Stored y t m' k') (le : x.rank ≤ y.rank) : units s m k ≤ units t m' k' := by
  rw [rank_eq hx.bits hx.small, rank_eq hy.bits hy.small] at le
  unfold units
  cases s with
  | positive =>
      cases t with
      | positive =>
          exact Int.ofNat_le.mpr (hx.canonical.le_of_code_le hy.canonical (Int.ofNat_le.mp le))
      | negative =>
          simp only [signedRank] at le
          omega
  | negative =>
      cases t with
      | positive =>
          simp only [Sign.apply]
          omega
      | negative =>
          simp only [signedRank] at le
          have codes : code m' k' ≤ code m k := by omega
          have magnitudes := hy.canonical.le_of_code_le hx.canonical codes
          exact Int.neg_le_neg (Int.ofNat_le.mpr magnitudes)

/-- The rank of a rounded number of units. -/
def roundedRank (z : Int) : Int :=
  if z < 0 then signedRank .negative (min (rounded z.natAbs) top)
  else signedRank .positive (min (rounded z.natAbs) top)

theorem roundedRank_mono {y z : Int} (h : y ≤ z) : roundedRank y ≤ roundedRank z := by
  unfold roundedRank
  split_ifs with below below'
  · have magnitudes := rounded_mono (by omega : z.natAbs ≤ y.natAbs)
    simp only [signedRank]
    omega
  · simp only [signedRank]
    omega
  · omega
  · have magnitudes := rounded_mono (by omega : y.natAbs ≤ z.natAbs)
    simp only [signedRank]
    omega

theorem rank_round (s : Sign) {m : Nat} (positive : 0 < m) (k : Nat) :
    Score.rank (.ofModel (.pack (UnpackedFloat.round .binary32 s m (k - 149)))) =
      signedRank s (min (rounded (m * 2 ^ k)) top) := by
  obtain ⟨m', k', nonzero, same, canonical, coded⟩ := round_eq s positive k
  rw [same, ← coded]
  exact rank_eq (pack_finite_toNat s canonical nonzero) (min_le_right _ _)

theorem rank_normalize (z : Int) (k : Nat) : Score.rank (.ofModel (.pack
    (UnpackedFloat.normalize .binary32 z (k - 149) .positive))) = roundedRank (z * 2 ^ k) := by
  have scale : (0 : Int) < 2 ^ k := by positivity
  have magnitude : (z * 2 ^ k).natAbs = z.natAbs * 2 ^ k := by
    rw [Int.natAbs_mul, Int.natAbs_pow]
    rfl
  unfold UnpackedFloat.normalize roundedRank
  rw [magnitude]
  cases order : compare z 0 with
  | lt =>
      rw [Int.compare_eq_lt] at order
      have toNat : (-z).toNat = z.natAbs := by omega
      rw [if_pos (Int.mul_neg_of_neg_of_pos order scale), ← toNat]
      exact rank_round .negative (by omega) k
  | eq =>
      rw [Int.compare_eq_eq] at order
      subst order
      rw [Int.zero_mul, if_neg (Int.lt_irrefl 0), Int.natAbs_zero, Nat.zero_mul, rounded_zero]
      exact rank_eq (packedZero_toNat .positive) (Nat.zero_le _)
  | gt =>
      rw [Int.compare_eq_gt] at order
      have toNat : z.toNat = z.natAbs := by omega
      rw [if_neg (Int.not_lt.mpr (Int.mul_nonneg (by omega) scale.le)), ← toNat]
      exact rank_round .positive (by omega) k

/-! ## One minus a number -/

theorem unpack_one : (1 : Score).toModel.unpack = .finite .positive (2 ^ 23) (-23) (by decide) := by
  rfl

theorem sub_finite (s : Sign) (m k : Nat) (nonzero : 0 < m) :
    UnpackedFloat.sub .binary32 (.finite .positive (2 ^ 23) (-23) (by decide))
      (.finite s m (k - 149) nonzero) =
    UnpackedFloat.normalize .binary32
      ((2 ^ 23 * 2 ^ (126 - k) : Nat) - s.apply (m * 2 ^ (k - 126) : Nat))
      ((min 126 k : Nat) - 149) .positive := by
  have least : min (-23) ((k : Int) - 149) = ((min 126 k : Nat) : Int) - 149 := by omega
  have first : (-23 - (((min 126 k : Nat) : Int) - 149)).toNat = 126 - k := by omega
  have second : ((k : Int) - 149 - (((min 126 k : Nat) : Int) - 149)).toNat = k - 126 := by omega
  simp only [UnpackedFloat.sub, decreaseExponent, least, first, second, Nat.shiftLeft_eq]
  rfl

theorem rank_sub_finite (s : Sign) (m k : Nat) (nonzero : 0 < m) :
    Score.rank (.ofModel (.pack (UnpackedFloat.sub .binary32
      (.finite .positive (2 ^ 23) (-23) (by decide)) (.finite s m (k - 149) nonzero)))) =
      roundedRank (2 ^ 149 - units s m k) := by
  rw [sub_finite, rank_normalize]
  congr 1
  have one : ((2 ^ 23 * 2 ^ (126 - k) : Nat) : Int) * 2 ^ min 126 k = 2 ^ 149 := by
    have powers : 126 - k + min 126 k = 126 := by omega
    push_cast
    rw [mul_assoc, ← pow_add, powers]
    norm_num
  have other : s.apply (m * 2 ^ (k - 126) : Nat) * 2 ^ min 126 k = units s m k := by
    have powers : k - 126 + min 126 k = k := by omega
    have magnitude : ((m * 2 ^ (k - 126) : Nat) : Int) * 2 ^ min 126 k = (m * 2 ^ k : Nat) := by
      push_cast
      rw [mul_assoc, ← pow_add, powers]
    cases s with
    | positive => exact magnitude
    | negative => exact (Int.neg_mul _ _).trans (congrArg Neg.neg magnitude)
  rw [Int.sub_mul, one, other]

/-- What is stored of a number, with the rank of one minus it. -/
theorem rank_one_sub {x : Score} (number : x.IsNumber) : ∃ s m k, Stored x s m k ∧
    (1 - x).rank = roundedRank (2 ^ 149 - units s m k) := by
  have difference : (1 - x : Score) = .ofModel (.pack (UnpackedFloat.sub .binary32
    (1 : Score).toModel.unpack x.toModel.unpack)) := rfl
  obtain ⟨s, a, bits, zero | infinite | nan | finite⟩ := unpack_cases x.toModel.toBits.toBitVec
  · obtain ⟨rfl, unpacked⟩ := zero
    refine ⟨s, 0, 0, ⟨⟨by decide, by simp⟩, bits, by decide⟩, ?_⟩
    have unpacked : x.toModel.unpack = .zero s := unpacked
    rw [difference, unpacked, unpack_one]
    cases s with
    | positive => decide +kernel
    | negative => decide +kernel
  · obtain ⟨rfl, unpacked⟩ := infinite
    have coded : code (2 ^ 23) 254 = top := by decide
    refine ⟨s, 2 ^ 23, 254, ⟨⟨by decide, by simp⟩, by rw [coded]; exact bits, coded.le⟩, ?_⟩
    have unpacked : x.toModel.unpack = .infinity s := unpacked
    rw [difference, unpacked, unpack_one]
    cases s with
    | positive => decide +kernel
    | negative => decide +kernel
  · have unpacked : x.toModel.unpack = .notANumber := nan
    obtain ⟨p, placed⟩ := Score.isNumber_iff.mp number
    rw [Score.placed, unpacked] at placed
    cases placed
  · obtain ⟨m, k, nonzero, unpacked, canonical, rfl, small⟩ := finite
    refine ⟨s, m, k, ⟨canonical, bits, small.le⟩, ?_⟩
    have unpacked : x.toModel.unpack = .finite s m (k - 149) nonzero := unpacked
    rw [difference, unpacked, unpack_one]
    exact rank_sub_finite s m k nonzero

/-- The greater of two numbers leaves no more of one. -/
theorem one_sub_antitone {x y : Score} (hx : x.IsNumber) (hy : y.IsNumber) (le : x.rank ≤ y.rank) :
    (1 - y).rank ≤ (1 - x).rank := by
  obtain ⟨s, m, k, storedX, rankX⟩ := rank_one_sub hx
  obtain ⟨t, m', k', storedY, rankY⟩ := rank_one_sub hy
  rw [rankX, rankY]
  exact roundedRank_mono (Int.sub_le_sub_left (storedX.units_le storedY le) _)

end CodeSearch.Rounding
