import CodeSearch.Index.Backoff
import CodeSearch.Proofs.Time.Calendar

/-! # Laws of backing off

The delay doubles with every attempt until the 33rd one, and then stays: so it follows the formula
exactly where the bound is reached by then. A retry is put off by exactly the delay, as long as the
calendar has a date for it.
-/

namespace CodeSearch.Backoff

open Time (Date Instant)

/-! ## Delays -/

/-- Twice the delay with every attempt, up to the bound. -/
def formulaMs (b : Backoff) (attempt : Nat) : Nat :=
  min (min (b.baseDelayMs * 2 ^ (attempt - 1)) b.maxDelayMs) longest

section

variable {b : Backoff}

/-- A bound of 64 bits keeps the products that do not fit into them out of sight. -/
theorem delayMs_eq (word : b.maxDelayMs ≤ greatestWord) (attempt : Nat) :
    b.delayMs attempt = b.formulaMs (min attempt (maxDoublings + 1)) := by
  have doublings : min (attempt - 1) maxDoublings = min attempt (maxDoublings + 1) - 1 := by omega
  have power : Nat.pow 2 (min (attempt - 1) maxDoublings) =
      2 ^ (min attempt (maxDoublings + 1) - 1) := by rw [doublings]; rfl
  rw [delayMs, doubled, power, formulaMs]
  omega

theorem formulaMs_mono {m n : Nat} (le : m ≤ n) : b.formulaMs m ≤ b.formulaMs n := by
  have doubled : b.baseDelayMs * 2 ^ (m - 1) ≤ b.baseDelayMs * 2 ^ (n - 1) :=
    Nat.mul_le_mul_left _ (Nat.pow_le_pow_right (by decide) (by omega))
  unfold formulaMs
  omega

/-- Beyond the last doubling the formula grows on, unless it starts from nothing or is bounded. -/
theorem formulaMs_eq_iff {m n : Nat} (one : 1 ≤ m) (lt : m < n) :
    b.formulaMs m = b.formulaMs n ↔
      b.baseDelayMs = 0 ∨ min b.maxDelayMs longest ≤ b.baseDelayMs * 2 ^ (m - 1) := by
  have grown : b.baseDelayMs * 2 ^ (m - 1) ≤ b.baseDelayMs * 2 ^ (n - 1) :=
    Nat.mul_le_mul_left _ (Nat.pow_le_pow_right (by decide) (by omega))
  have same : b.baseDelayMs * 2 ^ (m - 1) = b.baseDelayMs * 2 ^ (n - 1) ↔ b.baseDelayMs = 0 := by
    rw [mul_eq_mul_left_iff, Nat.pow_right_inj (by decide)]
    omega
  rw [← same]
  unfold formulaMs
  omega

theorem delayMs_doubles (word : b.maxDelayMs ≤ greatestWord) :
    (∀ n, 1 ≤ n → (b.delayMs n = b.formulaMs n ↔ n ≤ 33 ∨ b.baseDelayMs = 0 ∨
      min b.maxDelayMs longest ≤ b.baseDelayMs * 2 ^ 32)) ∧
    (∀ n, 33 ≤ n → b.delayMs n = b.delayMs 33) ∧
    (∀ m n, m ≤ n → b.delayMs m ≤ b.delayMs n) ∧
    ∀ n, b.delayMs n ≤ b.maxDelayMs ∧ b.delayMs n ≤ b.formulaMs n := by
  have last : maxDoublings + 1 = 33 := rfl
  refine ⟨fun n one => ?_, fun n late => ?_, fun m n le => ?_, fun n => ⟨?_, ?_⟩⟩
  · rw [delayMs_eq word, last]
    rcases Nat.lt_or_ge 33 n with late | early
    · rw [Nat.min_eq_right late.le, formulaMs_eq_iff (by decide) late]
      omega
    · rw [Nat.min_eq_left early]
      exact iff_of_true rfl (.inl early)
  · rw [delayMs_eq word, delayMs_eq word, last, Nat.min_eq_right late]
    rfl
  · rw [delayMs_eq word, delayMs_eq word]
    exact formulaMs_mono (by omega)
  · unfold delayMs
    omega
  · rw [delayMs_eq word]
    exact formulaMs_mono (by omega)

/-- A delay that starts small and may grow long. -/
def patient : Backoff where
  baseDelayMs := 1
  maxDelayMs := 100000000000
  maxAttempts := 50

theorem patient_doubles : patient.maxDelayMs ≤ greatestWord ∧
    patient.delayMs 33 = patient.formulaMs 33 ∧ patient.delayMs 40 = patient.delayMs 33 :=
  ⟨by decide, ((delayMs_doubles (by decide)).1 33 (by decide)).mpr (.inl (by decide)),
    (delayMs_doubles (by decide)).2.1 40 (by decide)⟩

/-- The delay after the 34th failure should be twice that after the 33rd one, and is the same. -/
theorem patient_stops_doubling : patient.validate = .ok () ∧
    patient.formulaMs 34 = 8589934592 ∧ patient.delayMs 34 = 4294967296 :=
  ⟨rfl, by decide, by decide⟩

end

/-! ## Retries -/

/-- When the delay is over. -/
def due (b : Backoff) (now : Instant) (attempts : Nat) : Instant :=
  now.addNanos (b.delayMs attempts * 1000000)

section

variable {b : Backoff} {now : Instant} {attempts : Nat}

theorem second_le_due (b : Backoff) (attempts : Nat) (wellFormed : now.nano < 2000000000) :
    now.second ≤ (b.due now attempts).second ∧
      (b.due now attempts).second * 1000 ≤ now.second * 1000 + b.delayMs attempts + 999 := by
  have forward : (0 : Int) ≤ b.delayMs attempts * 1000000 := by omega
  have bounds := Instant.second_addNanos wellFormed forward
  rw [← due] at bounds
  omega

/-- No time is too early for the calendar, because it only goes forward from now. -/
theorem nextRetryAt_eq (wellFormed : now.nano < 2000000000) (modern : 1970 ≤ now.date.year) :
    b.nextRetryAt now attempts =
      if b.maxAttempts ≤ attempts then .ok none
      else if (b.due now attempts).date.year ≤ Instant.lastYear then
        .ok (some (b.due now attempts))
      else .error {} := by
  have later := (second_le_due b attempts wellFormed).1
  have early := Instant.year_le_iff now (-Instant.lastYear - 2)
  have earlyDue := Instant.year_le_iff (b.due now attempts) (-Instant.lastYear - 2)
  have some := Instant.inRange_iff (b.due now attempts)
  have range : (b.due now attempts).inRange =
      decide ((b.due now attempts).date.year ≤ Instant.lastYear) := by
    rw [Bool.eq_iff_iff, decide_eq_true_iff, some]
    unfold Instant.lastYear at early earlyDue ⊢
    omega
  rw [nextRetryAt, Instant.addMillis?, ← due, range]
  split
  · rfl
  · by_cases late : (b.due now attempts).date.year ≤ Instant.lastYear <;> simp [late]

/-- Whoever waits no longer than from the year 10000 to the end of the calendar finds a date. -/
theorem due_year_le (attempts : Nat) (wellFormed : now.nano < 2000000000)
    (modern : now.date.year ≤ 9999) (bounded : b.maxDelayMs ≤ 7956864576000000) :
    (b.due now attempts).date.year ≤ Instant.lastYear := by
  have bounds := (second_le_due b attempts wellFormed).2
  have delay : b.delayMs attempts ≤ b.maxDelayMs := by
    unfold delayMs
    omega
  have start : (Date.mk (9999 + 1) 1 1).toDays = 2932897 := rfl
  have stop : (Date.mk (Instant.lastYear + 1) 1 1).toDays = 95026237 := rfl
  rw [Instant.year_le_iff] at modern ⊢
  rw [start] at modern
  rw [stop]
  omega

theorem nextRetryAt_on_time (b : Backoff) (attempts : Nat) (wellFormed : now.nano < 2000000000)
    (modern : 1970 ≤ now.date.year ∧ now.date.year ≤ 9999) :
    (b.nextRetryAt now attempts = .ok none ↔ b.maxAttempts ≤ attempts) ∧
    (∀ time, b.nextRetryAt now attempts = .ok (some time) ↔
      attempts < b.maxAttempts ∧ time = b.due now attempts ∧
        time.date.year ≤ Instant.lastYear) ∧
    (b.nextRetryAt now attempts = .error {} ↔
      attempts < b.maxAttempts ∧ Instant.lastYear < (b.due now attempts).date.year) ∧
    now.elapsed (b.due now attempts) = b.delayMs attempts * 1000000 ∧
    (b.maxDelayMs ≤ 7956864576000000 → ∃ next, b.nextRetryAt now attempts = .ok next) := by
  have forward : (0 : Int) ≤ b.delayMs attempts * 1000000 := by omega
  have elapsed := Instant.elapsed_addNanos wellFormed forward
  have bounded := due_year_le (b := b) attempts wellFormed modern.2
  rw [nextRetryAt_eq wellFormed modern.1]
  refine ⟨?_, fun time => ?_, ?_, elapsed, fun small => ?_⟩
  · split
    · simp [*]
    · split <;> simp [*]
  · split
    · rename_i exhausted
      simp [Nat.not_lt.mpr exhausted]
    · rename_i more
      split
      · rename_i inside
        constructor
        · rintro ⟨⟩
          exact ⟨Nat.lt_of_not_le more, rfl, inside⟩
        · rintro ⟨-, rfl, -⟩
          rfl
      · rename_i outside
        refine iff_of_false nofun ?_
        rintro ⟨-, rfl, inside⟩
        exact outside inside
  · split
    · rename_i exhausted
      simp [Nat.not_lt.mpr exhausted]
    · split <;> simp_all
  · rw [if_pos (bounded small)]
    split <;> exact ⟨_, rfl⟩

/-- Noon of 2024-03-01. -/
def marchNoon : Instant :=
  ⟨1709294400, 0⟩

theorem patient_on_time : marchNoon.nano < 2000000000 ∧
    (1970 ≤ marchNoon.date.year ∧ marchNoon.date.year ≤ 9999) ∧
    marchNoon.elapsed (patient.due marchNoon 40) = 4294967296000000 ∧
    ∃ next, patient.nextRetryAt marchNoon 40 = .ok next := by
  have wellFormed : marchNoon.nano < 2000000000 := by decide
  have modern : 1970 ≤ marchNoon.date.year ∧ marchNoon.date.year ≤ 9999 := by decide
  obtain ⟨-, -, -, exact, noPanic⟩ := nextRetryAt_on_time patient 40 wellFormed modern
  exact ⟨wellFormed, modern, exact, noPanic (by decide)⟩

/-- Delays of about 285,000 years. -/
def endless : Backoff where
  baseDelayMs := 9000000000000000
  maxDelayMs := 9000000000000000

theorem endless_beyond_calendar : endless.validate = .ok () ∧ 1 < endless.maxAttempts ∧
    marchNoon.date = ⟨2024, 3, 1⟩ ∧ endless.nextRetryAt marchNoon 1 = .error {} :=
  ⟨rfl, by decide, by decide, rfl⟩

end

end CodeSearch.Backoff
