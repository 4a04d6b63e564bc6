import CodeSearch.Text.Blank
import CodeSearch.Time.Rfc3339

/-! # Dates written by hand

A date is written as year, month and day with hyphens between them. Blank characters may stand
before each number, a year with a sign may have any number of digits, and month and day may have
one.
-/

namespace CodeSearch.Time

/-- Why a text is no date. -/
inductive DateError where
  | tooShort
  | invalid
  | outOfRange
  | tooLong
  deriving Repr, DecidableEq

namespace DateError

def message : DateError → String
  | tooShort => "premature end of input"
  | invalid => "input contains invalid characters"
  | outOfRange => "input is out of range"
  | tooLong => "trailing input"

end DateError

namespace DateText

/-- Largest number of a signed word of 64 bits. -/
def maxNumber : Nat := Nat.pow 2 63 - 1

/-- Take up to `width` digits behind the `value` read so far. -/
def takeNumber : (width : Nat) → (value : Nat) → List Char → Except DateError (Nat × List Char)
  | 0, value, cs => .ok (value, cs)
  | _ + 1, value, [] => .ok (value, [])
  | width + 1, value, c :: cs =>
    if c.isDigit then
      let value := value * 10 + (c.toNat - '0'.toNat)
      if maxNumber < value then .error .outOfRange else takeNumber width value cs
    else .ok (value, c :: cs)

/-- A number of at least one digit and at most `width`. -/
def number (width : Nat) (cs : List Char) : Except DateError (Nat × List Char) :=
  match cs with
  | [] => .error .tooShort
  | c :: _ => if c.isDigit then takeNumber width 0 cs else .error .invalid

/-- A year: four digits at most, or a sign and any number of digits. -/
def year (cs : List Char) : Except DateError (Int × List Char) :=
  match cs.dropWhile Text.isBlank with
  | '-' :: rest => (number rest.length rest).map fun (n, rest) => (-(n : Int), rest)
  | '+' :: rest => (number rest.length rest).map fun (n, rest) => ((n : Int), rest)
  | rest => (number 4 rest).map fun (n, rest) => ((n : Int), rest)

/-- A number of two digits at most, between 1 and `last`. -/
def upTo (last : Nat) (cs : List Char) : Except DateError (Nat × List Char) := do
  let (n, rest) ← number 2 (cs.dropWhile Text.isBlank)
  if 1 ≤ n && n ≤ last then pure (n, rest) else throw .outOfRange

def hyphen : List Char → Except DateError (List Char)
  | [] => .error .tooShort
  | c :: cs => if c == '-' then .ok cs else .error .invalid

/-- The year fits into a signed word of 32 bits. -/
def checkYear (y : Int) : Except DateError Unit :=
  if y < -2147483648 || 2147483647 < y then .error .outOfRange else .ok ()

end DateText

namespace Date

def ofText (s : String) : Except DateError Date := do
  let (y, cs) ← DateText.year s.toList
  DateText.checkYear y
  let cs ← DateText.hyphen cs
  let (m, cs) ← DateText.upTo 12 cs
  let cs ← DateText.hyphen cs
  let (d, cs) ← DateText.upTo 31 cs
  if cs.isEmpty then
    let date : Date := ⟨y, m, d⟩
    if date.isValid && 0 ≤ y + Instant.lastYear + 1 && y ≤ Instant.lastYear then pure date
    else throw .outOfRange
  else throw .tooLong

end Date

namespace Instant

def startOf (d : Date) : Instant :=
  ofDate d 0 0 0 0

/-- The last millisecond of a date. -/
def endOf (d : Date) : Instant :=
  ofDate d 23 59 59 999000000

end Instant

end CodeSearch.Time
