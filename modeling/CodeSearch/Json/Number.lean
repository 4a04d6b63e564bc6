import CodeSearch.Decimal.Reader
import CodeSearch.Json.Basic

/-! # Numbers of JSON texts

A literal without fraction and exponent that fits into 64 bits is an integer. Any other one is a
float: the leading digits that fit into 64 bits, as a float, times or divided by a power of ten.
-/

namespace CodeSearch.Json

/-- Largest number that 64 bits hold. -/
def maxWord : Nat := Nat.pow 2 64 - 1

def power (n : Nat) : Float :=
  Float.ofScientific 1 false n

/-- `x * 10 ^ exponent`, or none where that is too large. -/
def scale (fuel : Nat) (x : Float) (exponent : Int) : Option Float :=
  if exponent.natAbs ≤ 308 then
    if 0 ≤ exponent then
      let y := x * power exponent.toNat
      if y.isInf then none else some y
    else some (x / power exponent.natAbs)
  else if x == 0.0 then some x
  else if 0 ≤ exponent then none
  else
    match fuel with
    | 0 => some 0.0
    | fuel + 1 => scale fuel (x / power 308) (exponent + 308)

/-- Take digits while the number they write fits into 64 bits. -/
def takeDigits (n : Nat) : List Char → Nat × List Char
  | [] => (n, [])
  | c :: cs =>
    let m := n * 10 + (c.toNat - '0'.toNat)
    if m ≤ maxWord then takeDigits m cs else (n, c :: cs)

/-- The parts of a literal: sign, digits before the point, digits after it, and exponent. -/
structure Literal where
  negative : Bool
  whole : List Char
  fraction : Option (List Char)
  exponent : Option (Bool × List Char)
  deriving Repr, DecidableEq

/-- Take a literal apart. Zeros before other digits, and parts without digits, are refused. -/
def Literal.ofChars? (cs : List Char) : Option Literal := do
  let (negative, cs) :=
    match cs with
    | '-' :: rest => (true, rest)
    | _ => (false, cs)
  let whole := cs.takeWhile Char.isDigit
  let cs := cs.dropWhile Char.isDigit
  if whole.isEmpty || (whole.head? == some '0' && 1 < whole.length) then none
  else
    let (fraction, cs) :=
      match cs with
      | '.' :: rest => (some (rest.takeWhile Char.isDigit), rest.dropWhile Char.isDigit)
      | _ => (none, cs)
    if fraction == some [] then none
    else
      match cs with
      | [] => some ⟨negative, whole, fraction, none⟩
      | e :: rest =>
        if e == 'e' || e == 'E' then
          let (down, digits) :=
            match rest with
            | '+' :: digits => (false, digits)
            | '-' :: digits => (true, digits)
            | _ => (false, rest)
          if digits.isEmpty || !digits.all Char.isDigit then none
          else some ⟨negative, whole, fraction, some (down, digits)⟩
        else none

def signed (negative : Bool) (x : Float) : Float :=
  if negative then -x else x

/-- The float of a literal, or none where it is too large. -/
def Literal.float? (l : Literal) : Option Float :=
  let (significand, unread) := takeDigits 0 l.whole
  let (significand, shift) :=
    match l.fraction with
    | none => (significand, (unread.length : Int))
    | some fraction =>
      let (longer, rest) := takeDigits significand fraction
      (longer, unread.length - (fraction.length - rest.length))
  let exponent :=
    match l.exponent with
    | none => some shift
    | some (down, digits) =>
      let n := Decimal.natOf digits
      if n < Nat.pow 2 31 then some (if down then shift - n else shift + n) else none
  match exponent with
  | some e => (scale 8 (Float.ofNat significand) e).map (signed l.negative)
  | none =>
    match l.exponent with
    | some (false, _) => if significand = 0 then some (signed l.negative 0.0) else none
    | _ => some (signed l.negative 0.0)

/-- The number of a literal, or none where it is none or too large. -/
def number? (cs : List Char) : Option Json := do
  let l ← Literal.ofChars? cs
  match l.fraction, l.exponent with
  | none, none =>
    let n := Decimal.natOf l.whole
    if l.negative then
      if 0 < n && n ≤ Nat.pow 2 63 then some (int (-(n : Int))) else l.float?.map float
    else if n ≤ maxWord then some (int n)
    else l.float?.map float
  | _, _ => l.float?.map float

end CodeSearch.Json
