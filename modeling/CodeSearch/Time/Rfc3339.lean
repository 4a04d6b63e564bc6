import CodeSearch.Decimal.Reader
import CodeSearch.Text.Split
import CodeSearch.Time.Instant

/-! # Instants in the RFC 3339 form

Reading accepts any offset from UTC and any number of fraction digits, of which nine count.
Writing is in UTC, with three, six or nine fraction digits where the fraction is not zero.
-/

namespace CodeSearch.Time

/-- The number that exactly `n` decimal digits write, and what follows them. -/
def readDigits : (n : Nat) → List Char → (value : Nat) → Option (Nat × List Char)
  | 0, cs, value => some (value, cs)
  | _ + 1, [], _ => none
  | n + 1, c :: cs, value =>
    if c.isDigit then readDigits n cs (value * 10 + (c.toNat - '0'.toNat)) else none

/-- What follows a character that has to come first. -/
def expect (p : Char → Bool) : List Char → Option (List Char)
  | c :: cs => if p c then some cs else none
  | [] => none

/-- Nanoseconds of a fraction that is written by the given digits. -/
def fractionNanos (digits : List Char) : Nat :=
  let kept := digits.take 9
  Decimal.natOf kept * Nat.pow 10 (9 - kept.length)

/-- A fraction after a point, if there is one. -/
def readFraction : List Char → Option (Nat × List Char)
  | '.' :: cs =>
    let digits := cs.takeWhile Char.isDigit
    if digits.isEmpty then none
    else some (fractionNanos digits, cs.dropWhile Char.isDigit)
  | cs => some (0, cs)

/-- Seconds by which local time is ahead of UTC. -/
def readOffset : List Char → Option (Int × List Char)
  | [] => none
  | c :: cs =>
    if c == 'Z' || c == 'z' then some (0, cs)
    else if c == '+' || c == '-' || c == '−' then do
      let (hours, cs) ← readDigits 2 cs 0
      let cs ← expect (· == ':') cs
      let (minutes, cs) ← readDigits 2 cs 0
      let seconds : Int := hours * 3600 + minutes * 60
      if hours < 24 && minutes < 60 then some (if c == '+' then seconds else -seconds, cs)
      else none
    else none

namespace Instant

def ofRfc3339? (s : String) : Option Instant := do
  let (year, cs) ← readDigits 4 s.toList 0
  let cs ← expect (· == '-') cs
  let (month, cs) ← readDigits 2 cs 0
  let cs ← expect (· == '-') cs
  let (day, cs) ← readDigits 2 cs 0
  let cs ← expect (fun c => c == 'T' || c == 't' || c == ' ') cs
  let (hour, cs) ← readDigits 2 cs 0
  let cs ← expect (· == ':') cs
  let (minute, cs) ← readDigits 2 cs 0
  let cs ← expect (· == ':') cs
  let (second, cs) ← readDigits 2 cs 0
  let (nano, cs) ← readFraction cs
  let (offset, cs) ← readOffset cs
  let date : Date := ⟨year, month, day⟩
  if date.isValid && hour < 24 && minute < 60 && second ≤ 60 && cs.isEmpty then
    let whole := if second = 60 then 59 else second
    let local_ := ofDate date hour minute whole (if second = 60 then nano + 1000000000 else nano)
    some { local_ with second := local_.second - offset }
  else none

/-- A number with zeros before it up to a width. -/
def padded (width n : Nat) : String :=
  let digits := Nat.toDigits 10 n
  String.ofList (List.replicate (width - digits.length) '0' ++ digits)

/-- A year in four digits, with a sign and more digits where it needs them. -/
def yearText (year : Int) : String :=
  if 0 ≤ year && year ≤ 9999 then padded 4 year.toNat
  else if year < 0 then "-" ++ padded 4 year.natAbs
  else "+" ++ padded 4 year.natAbs

/-- The fraction of a second in three, six or nine digits, or nothing where it is zero. -/
def fractionText (nano : Nat) : String :=
  if nano = 0 then ""
  else if nano % 1000000 = 0 then "." ++ padded 3 (nano / 1000000)
  else if nano % 1000 = 0 then "." ++ padded 6 (nano / 1000)
  else "." ++ padded 9 nano

def dateText (a : Instant) : String :=
  Text.join "-" [yearText a.date.year, padded 2 a.date.month, padded 2 a.date.day]

def timeText (a : Instant) : String :=
  let inDay := a.secondOfDay.toNat
  let second := inDay % 60 + a.nano / 1000000000
  Text.join ":" [padded 2 (inDay / 3600), padded 2 (inDay / 60 % 60), padded 2 second] ++
    fractionText (a.nano % 1000000000)

def toRfc3339 (a : Instant) : String :=
  a.dateText ++ "T" ++ a.timeText ++ "Z"

/-- An instant as it stands in messages. -/
def toText (a : Instant) : String :=
  a.dateText ++ " " ++ a.timeText ++ " UTC"

end Instant

end CodeSearch.Time
