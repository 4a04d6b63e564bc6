/-! # Shortest decimals

Every binary float owns an interval of real numbers that round to it. Its shortest decimal is the
one with the fewest digits inside that interval, and of several with as few digits the nearest.
-/

namespace CodeSearch.Decimal

/-- A number `digits * 10 ^ exponent`. -/
structure Scientific where
  digits : Nat
  exponent : Int
  deriving Repr, DecidableEq, Inhabited

/-- The interval of a float: numerators over one denominator. The ends belong to it when `closed`
    holds. -/
structure Interval where
  low : Nat
  value : Nat
  high : Nat
  denominator : Nat
  closed : Bool
  deriving Repr, DecidableEq

namespace Interval

/-- The interval of the float `mantissa * 2 ^ exponent`. Below a power of two the gap to the next
    float is half as wide. -/
def ofBinary (mantissa : Nat) (exponent : Int) (narrowBelow : Bool) : Interval :=
  let gap := if narrowBelow then 1 else 2
  let scale := Nat.pow 2 (exponent - 2).toNat
  { low := (4 * mantissa - gap) * scale
    value := 4 * mantissa * scale
    high := (4 * mantissa + 2) * scale
    denominator := Nat.pow 2 (2 - exponent).toNat
    closed := mantissa % 2 == 0 }

/-- Whether `digits * step / unit` lies in the interval. -/
def holds (i : Interval) (digits step unit : Nat) : Bool :=
  let x := digits * step * i.denominator
  if i.closed then i.low * unit ≤ x && x ≤ i.high * unit
  else i.low * unit < x && x < i.high * unit

/-- The multiple of `10 ^ exponent` in the interval that is nearest to its value; of two equally
    near ones the upper. -/
def nearestOn? (i : Interval) (exponent : Int) : Option Nat :=
  let step := Nat.pow 10 exponent.toNat
  let unit := Nat.pow 10 (-exponent).toNat
  let below := i.value * unit / (i.denominator * step)
  let excess := i.value * unit - below * i.denominator * step
  let upperIsNearer := i.denominator * step ≤ 2 * excess
  match i.holds below step unit, i.holds (below + 1) step unit with
  | true, true => some (if upperIsNearer then below + 1 else below)
  | true, false => some below
  | false, true => some (below + 1)
  | false, false => none

/-- Number of digits before the point, or minus the number of zeros after it. -/
def magnitudeFrom (i : Interval) : (fuel : Nat) → (scaled : Nat) → (zeros : Nat) → Int
  | 0, _, zeros => -zeros
  | fuel + 1, scaled, zeros =>
    if i.denominator ≤ scaled then -zeros
    else magnitudeFrom i fuel (scaled * 10) (zeros + 1)

def magnitude (i : Interval) : Int :=
  if i.denominator ≤ i.value then (Nat.toDigits 10 (i.value / i.denominator)).length
  else magnitudeFrom i 400 (i.value * 10) 0

/-- Try `tries` grids, each ten times finer than the one before. -/
def searchFrom (i : Interval) : (tries : Nat) → (exponent : Int) → Option Scientific
  | 0, _ => none
  | tries + 1, exponent =>
    match i.nearestOn? exponent with
    | some digits => some ⟨digits, exponent⟩
    | none => searchFrom i tries (exponent - 1)

end Interval

namespace Scientific

/-- Move zeros at the end of the digits into the exponent. -/
def stripZeros : (fuel : Nat) → Scientific → Scientific
  | 0, x => x
  | fuel + 1, x =>
    if x.digits ≠ 0 && x.digits % 10 == 0 then stripZeros fuel ⟨x.digits / 10, x.exponent + 1⟩
    else x

end Scientific

/-- The shortest decimal of a positive float. Seventeen digits are enough for all of them. -/
def shortest (mantissa : Nat) (exponent : Int) (narrowBelow : Bool) : Scientific :=
  let i := Interval.ofBinary mantissa exponent narrowBelow
  ((i.searchFrom 17 (i.magnitude - 1)).getD ⟨0, 0⟩).stripZeros 20

/-- What the bits of a float say. -/
inductive Parts where
  | notANumber
  | infinite (negative : Bool)
  /-- Zero, or a number with its shortest decimal. -/
  | finite (negative : Bool) (decimal : Scientific)
  deriving Repr, DecidableEq

/-- Read the bits of a float with the given widths of fraction and exponent. -/
def Parts.ofBits (fractionBits exponentBits bits : Nat) : Parts :=
  let fraction := bits % Nat.pow 2 fractionBits
  let biased := bits / Nat.pow 2 fractionBits % Nat.pow 2 exponentBits
  let negative := bits / Nat.pow 2 (fractionBits + exponentBits) % 2 == 1
  let top : Nat := Nat.pow 2 exponentBits - 1
  let bias : Int := Nat.pow 2 (exponentBits - 1) - 1 + fractionBits
  if biased = top then
    if fraction = 0 then infinite negative else notANumber
  else if biased = 0 then
    if fraction = 0 then finite negative ⟨0, 0⟩
    else finite negative (shortest fraction (1 - bias) false)
  else
    finite negative
      (shortest (fraction + Nat.pow 2 fractionBits) (biased - bias) (fraction == 0 && 1 < biased))

def Parts.ofFloat (x : Float) : Parts :=
  Parts.ofBits 52 11 x.toBits.toNat

def Parts.ofFloat32 (x : Float32) : Parts :=
  Parts.ofBits 23 8 x.toBits.toNat

end CodeSearch.Decimal
