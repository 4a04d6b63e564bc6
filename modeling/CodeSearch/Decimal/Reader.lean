import CodeSearch.Decimal.Text

/-! # Reading decimals

A decimal is read as the float nearest to it; of two equally near floats the one with the even
mantissa is taken.
-/

namespace CodeSearch.Decimal

/-- The number that ASCII digits write, the highest first. -/
def natOf (digits : List Char) : Nat :=
  digits.foldl (fun n c => n * 10 + (c.toNat - '0'.toNat)) 0

/-- The layout of a binary float: digits of the mantissa, exponent of the smallest float, and width
    of the exponent field. -/
structure Format where
  precision : Nat
  minExponent : Int
  exponentBits : Nat
  deriving Repr, DecidableEq

def single : Format := ⟨24, -149, 8⟩
def double : Format := ⟨53, -1074, 11⟩

namespace Format

def infinity (f : Format) : Nat :=
  (Nat.pow 2 f.exponentBits - 1) * Nat.pow 2 (f.precision - 1)

/-- The quotient rounded to the nearest whole number, a half to the even one. -/
def roundQuotient (n d : Nat) : Nat :=
  let q := n / d
  let r := n % d
  if 2 * r < d || (2 * r = d && q % 2 = 0) then q else q + 1

/-- Bits of the float `mantissa * 2 ^ exponent`, where the mantissa has no more digits than the
    format and the exponent is not below the least. -/
def encode (f : Format) (mantissa : Nat) (exponent : Int) : Nat :=
  let unit := Nat.pow 2 (f.precision - 1)
  let (mantissa, exponent) :=
    if mantissa = 2 * unit then (unit, exponent + 1) else (mantissa, exponent)
  if mantissa < unit then mantissa
  else
    let biased := (exponent - f.minExponent + 1).toNat
    if Nat.pow 2 f.exponentBits - 1 ≤ biased then f.infinity else biased * unit + (mantissa - unit)

/-- Bits of the float nearest to the quotient of two positive numbers. -/
def ofQuotient (f : Format) (n d : Nat) : Nat :=
  let guess : Int := (n.log2 : Int) - d.log2 - (f.precision - 1)
  let scaled (k : Int) : Nat × Nat := (n * Nat.pow 2 (-k).toNat, d * Nat.pow 2 k.toNat)
  let fits (k : Int) : Bool :=
    let (a, b) := scaled k
    a < b * Nat.pow 2 f.precision && b * Nat.pow 2 (f.precision - 1) ≤ a
  let k := if fits guess then guess else guess - 1
  let k := max k f.minExponent
  let (a, b) := scaled k
  f.encode (roundQuotient a b) k

/-- Bits of the float nearest to a decimal. -/
def ofScientific (f : Format) (x : Scientific) : Nat :=
  let magnitude : Int := (digitsOf x.digits).length + x.exponent
  if x.digits = 0 || magnitude < -400 then 0
  else if 400 < magnitude then f.infinity
  else f.ofQuotient (x.digits * Nat.pow 10 x.exponent.toNat) (Nat.pow 10 (-x.exponent).toNat)

end Format

/-- What a text says about a float. -/
inductive Literal where
  | notANumber
  | infinite (negative : Bool)
  | finite (negative : Bool) (value : Scientific)
  deriving Repr, DecidableEq

namespace Literal

/-- The exponent behind a mantissa. -/
def exponent? : List Char → Option Int
  | [] => some 0
  | e :: cs =>
    if e == 'e' || e == 'E' then
      let (negative, digits) :=
        match cs with
        | '-' :: digits => (true, digits)
        | '+' :: digits => (false, digits)
        | _ => (false, cs)
      if digits.isEmpty || !digits.all Char.isDigit then none
      else some (if negative then -(natOf digits : Int) else natOf digits)
    else none

/-- A number without its sign. -/
def number? (cs : List Char) : Option Scientific := do
  let whole := cs.takeWhile Char.isDigit
  let rest := cs.dropWhile Char.isDigit
  let (fraction, rest) :=
    match rest with
    | '.' :: rest => (rest.takeWhile Char.isDigit, rest.dropWhile Char.isDigit)
    | _ => ([], rest)
  if whole.isEmpty && fraction.isEmpty then none
  else
    let e ← exponent? rest
    some ⟨natOf (whole ++ fraction), e - fraction.length⟩

/-- Read a float: an optional sign, and a number, `inf`, `infinity` or `nan` in any letter case. A
    number needs a digit on at least one side of its point. -/
def ofText? (s : String) : Option Literal :=
  let (negative, cs) :=
    match s.toList with
    | '-' :: cs => (true, cs)
    | '+' :: cs => (false, cs)
    | cs => (false, cs)
  match String.ofList (cs.map Char.toLower) with
  | "inf" | "infinity" => some (infinite negative)
  | "nan" => some notANumber
  | _ => (number? cs).map (finite negative)

/-- The nearest single-precision float. -/
def toFloat32 : Literal → Float32
  | notANumber => 0 / 0
  | infinite negative => if negative then -1 / 0 else 1 / 0
  | finite negative x =>
    let y := Float32.ofBits (single.ofScientific x).toUInt32
    if negative then -y else y

/-- The nearest double-precision float. -/
def toFloat : Literal → Float
  | notANumber => 0 / 0
  | infinite negative => if negative then -1 / 0 else 1 / 0
  | finite negative x =>
    let y := Float.ofBits (double.ofScientific x).toUInt64
    if negative then -y else y

end Literal

end CodeSearch.Decimal
