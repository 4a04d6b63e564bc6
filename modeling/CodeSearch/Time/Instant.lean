import CodeSearch.Time.Calendar

/-! # Instants

A point in time on the UTC clock, to the nanosecond.
-/

namespace CodeSearch.Time

/-- A point in time: seconds since 1970-01-01T00:00:00Z and nanoseconds within the second. The
    nanoseconds of a leap second run on from those of the second before it. -/
structure Instant where
  second : Int
  nano : Nat
  deriving Repr, DecidableEq, Inhabited

namespace Instant

/-- Order in time. -/
def lt (a b : Instant) : Bool :=
  a.second < b.second || (a.second == b.second && a.nano < b.nano)

def le (a b : Instant) : Bool :=
  !b.lt a

/-- Nanoseconds since 1970-01-01T00:00:00Z. -/
def toNanos (a : Instant) : Int :=
  a.second * 1000000000 + a.nano

def ofNanos (nanos : Int) : Instant :=
  ⟨nanos.fdiv 1000000000, (nanos.fmod 1000000000).toNat⟩

/-- Day on which the instant falls, as days since 1970-01-01. -/
def day (a : Instant) : Int :=
  a.second.fdiv 86400

/-- Date of the UTC calendar on which the instant falls. -/
def date (a : Instant) : Date :=
  Date.ofDays a.day

/-- The last year whose instants can be represented; the first one is as far before the year 0. -/
def lastYear : Int := 262142

/-- Whether the year of the instant can be represented. -/
def inRange (a : Instant) : Bool :=
  let year := a.date.year
  0 ≤ year + lastYear + 1 && year ≤ lastYear

/-- Second of the day in which the instant falls. -/
def secondOfDay (a : Instant) : Int :=
  a.second.fmod 86400

/-- Whether the instant falls in a leap second. -/
def isLeap (a : Instant) : Bool :=
  1000000000 ≤ a.nano

/-- The instant that many nanoseconds later. A leap second passes like any other for one who starts
    in it, and is skipped over by all who start elsewhere. -/
def addNanos (a : Instant) (nanos : Int) : Instant :=
  if a.isLeap && -1000000000 < nanos && a.nano + nanos < 2000000000 then
    { a with nano := (a.nano + nanos).toNat }
  else if a.isLeap && 0 < nanos then ofNanos (a.toNanos + nanos - 1000000000)
  else ofNanos (a.toNanos + nanos)

/-- The instant that many milliseconds later, when it can be represented. -/
def addMillis? (a : Instant) (millis : Int) : Option Instant :=
  let sum := a.addNanos (millis * 1000000)
  if sum.inRange then some sum else none

/-- Whole milliseconds from `b` until `a`, and 0 when `a` is not after `b`. The leap second in which
    one of them falls counts where the other one is later in its day. -/
def millisSince (a b : Instant) : Nat :=
  let leap : Int :=
    if b.isLeap && b.secondOfDay < a.secondOfDay then 1000000000
    else if a.isLeap && a.secondOfDay < b.secondOfDay then -1000000000
    else 0
  ((a.toNanos - b.toNanos + leap) / 1000000).toNat

def ofDate (date : Date) (hour minute second nano : Nat) : Instant :=
  ⟨date.toDays * 86400 + (hour * 3600 + minute * 60 + second : Nat), nano⟩

end Instant

end CodeSearch.Time
