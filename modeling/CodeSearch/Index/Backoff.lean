import CodeSearch.Time.Instant

/-! # Backing off

A file that failed is tried again after a delay that doubles with every attempt, up to a bound.
-/

namespace CodeSearch

open Time (Instant)

/-- How long to wait before a failed file is tried again, and how often. -/
structure Backoff where
  /-- Delay after the first failure, in milliseconds. -/
  baseDelayMs : Nat := 500
  /-- Greatest delay, in milliseconds. -/
  maxDelayMs : Nat := 60000
  /-- Number of attempts after which the file is left alone. -/
  maxAttempts : Nat := 5
  deriving Repr, DecidableEq, Inhabited

/-- A time that no calendar date stands for. -/
structure BeyondCalendar where
  deriving Repr, DecidableEq

namespace Backoff

/-- Number of times after which the delay doubles no more. -/
def maxDoublings : Nat := 32

/-- Greatest unsigned number of 64 bits. -/
def greatestWord : Nat := Nat.pow 2 64 - 1

/-- Greatest delay that can be measured, in milliseconds. -/
def longest : Nat := Nat.pow 2 63 - 1

/-- The first delay, doubled for every attempt after the first one and kept within 64 bits. -/
def doubled (b : Backoff) (attempt : Nat) : Nat :=
  min (b.baseDelayMs * Nat.pow 2 (min (attempt - 1) maxDoublings)) greatestWord

/-- Delay in milliseconds after the `attempt`-th failure, counted from 1. -/
def delayMs (b : Backoff) (attempt : Nat) : Nat :=
  min (min (b.doubled attempt) b.maxDelayMs) longest

/-- When a file that failed `attempts` times is tried again, if it is. -/
def nextRetryAt (b : Backoff) (now : Instant) (attempts : Nat) :
    Except BeyondCalendar (Option Instant) :=
  if b.maxAttempts ≤ attempts then .ok none
  else
    match now.addMillis? (b.delayMs attempts) with
    | some t => .ok (some t)
    | none => .error {}

/-- Accept a policy that tries at all and whose bound is not below the first delay. -/
def validate (b : Backoff) : Except String Unit :=
  if b.maxAttempts = 0 then .error "retry.max_attempts must be > 0"
  else if b.maxDelayMs < b.baseDelayMs then
    .error "retry.base_delay_ms must be <= retry.max_delay_ms"
  else .ok ()

end Backoff

end CodeSearch
