import CodeSearch.Time.Instant
import Mathlib.Tactic.Common
import Mathlib.Tactic.IntervalCases

/-! # Days and dates in one order

Numbers of days and dates that exist are two names of one thing: every day has a date that exists,
which counts back to the day, and a later day has a later date. Years are counted from March here,
so that a leap day is the last day of its year, and an era of 400 of them has 146097 days.
-/

namespace CodeSearch.Time

namespace Date

/-- Years count first, then months, then days. -/
instance : LE Date where
  le a b := a.year < b.year ∨
    a.year = b.year ∧ (a.month < b.month ∨ a.month = b.month ∧ a.day ≤ b.day)

instance (a b : Date) : Decidable (a ≤ b) :=
  inferInstanceAs (Decidable (_ ∨ _))

theorem le_iff {a b : Date} : a ≤ b ↔ a.year < b.year ∨
    a.year = b.year ∧ (a.month < b.month ∨ a.month = b.month ∧ a.day ≤ b.day) :=
  Iff.rfl

/-! ## Years from March -/

/-- The day on which a year begins that is counted from March. -/
def marchFirst (year : Int) : Int :=
  365 * year + year / 4 - year / 100 + year / 400 - 719468

def marchYear (d : Date) : Int :=
  if d.month ≤ 2 then d.year - 1 else d.year

def marchMonth (d : Date) : Int :=
  (d.month + 9) % 12

/-- Days of a year from March before the first of a month. -/
def monthStart (marchMonth : Int) : Int :=
  (153 * marchMonth + 2) / 5

theorem leap_iff (year : Int) :
    isLeapYear year = true ↔ year % 4 = 0 ∧ (year % 100 ≠ 0 ∨ year % 400 = 0) := by
  simp [isLeapYear]

theorem marchFirst_next (year : Int) : marchFirst (year + 1) =
    marchFirst year + if isLeapYear (year + 1) then 366 else 365 := by
  have leap := leap_iff (year + 1)
  unfold marchFirst
  split <;> simp_all <;> omega

theorem marchFirst_mono {a b : Int} (le : a ≤ b) : marchFirst a ≤ marchFirst b := by
  unfold marchFirst
  omega

theorem toDays_eq (d : Date) :
    d.toDays = marchFirst d.marchYear + monthStart d.marchMonth + d.day - 1 := by
  have floor (n : Int) : n.fdiv 400 = n / 400 := Int.fdiv_eq_ediv_of_nonneg n (by decide)
  have counted : d.toDays = d.marchYear.fdiv 400 * 146097 +
      ((d.marchYear - d.marchYear.fdiv 400 * 400) * 365 +
        (d.marchYear - d.marchYear.fdiv 400 * 400) / 4 -
        (d.marchYear - d.marchYear.fdiv 400 * 400) / 100 +
        (monthStart d.marchMonth + d.day - 1)) - 719468 := rfl
  rw [counted, floor, marchFirst]
  omega

/-! ## Dates that exist -/

theorem isValid_iff {d : Date} : d.isValid = true ↔
    (1 ≤ d.month ∧ d.month ≤ 12) ∧ 1 ≤ d.day ∧ d.day ≤ daysInMonth d.year d.month := by
  simp [isValid, and_assoc]

/-- A month ends where the next one begins, and February, the last one, with its year. -/
theorem daysInMonth_eq {d : Date} (first : 1 ≤ d.month) (last : d.month ≤ 12) :
    (daysInMonth d.year d.month : Int) =
      (if d.marchMonth = 11 then marchFirst (d.marchYear + 1) - marchFirst d.marchYear
        else monthStart (d.marchMonth + 1)) - monthStart d.marchMonth := by
  obtain ⟨year, month, day⟩ := d
  have next := marchFirst_next (year - 1)
  rw [Int.sub_add_cancel] at next
  dsimp only at first last ⊢
  interval_cases month
  case «2» =>
    have start : monthStart 11 = 337 := rfl
    simp only [daysInMonth, marchYear, marchMonth, Nat.le_refl, if_true, Int.sub_add_cancel]
    cases leap : isLeapYear year <;> simp [leap] at next ⊢ <;> omega
  all_goals simp [daysInMonth, marchMonth, monthStart]

theorem marchMonth_few (d : Date) : 0 ≤ d.marchMonth ∧ d.marchMonth ≤ 11 := by
  unfold marchMonth
  omega

section

variable {a b d : Date}

/-- The days of a month all lie before the next month and before the next year. -/
theorem day_bounds (valid : d.isValid = true) : 1 ≤ d.day ∧
    (d.marchMonth < 11 → monthStart d.marchMonth + d.day ≤ monthStart (d.marchMonth + 1)) ∧
    monthStart d.marchMonth + d.day ≤ marchFirst (d.marchYear + 1) - marchFirst d.marchYear := by
  obtain ⟨⟨first, last⟩, one, most⟩ := isValid_iff.mp valid
  have length := daysInMonth_eq first last
  have next := marchFirst_next d.marchYear
  have few := marchMonth_few d
  refine ⟨one, ?_⟩
  split at length
  · omega
  · unfold monthStart at length ⊢
    split at next <;> omega

theorem toDays_bounds (valid : d.isValid = true) :
    marchFirst d.marchYear ≤ d.toDays ∧ d.toDays < marchFirst (d.marchYear + 1) := by
  have bounds := day_bounds valid
  have few := marchMonth_few d
  rw [toDays_eq]
  unfold monthStart at bounds ⊢
  omega

/-- Counting years from March puts dates that exist in the same order. -/
theorem le_iff_march (validA : a.isValid = true) (validB : b.isValid = true) :
    a ≤ b ↔ a.marchYear < b.marchYear ∨ a.marchYear = b.marchYear ∧
      (a.marchMonth < b.marchMonth ∨ a.marchMonth = b.marchMonth ∧ a.day ≤ b.day) := by
  obtain ⟨monthA, -⟩ := isValid_iff.mp validA
  obtain ⟨monthB, -⟩ := isValid_iff.mp validB
  rw [le_iff]
  unfold marchYear marchMonth
  split <;> split <;> omega

theorem toDays_le_iff (validA : a.isValid = true) (validB : b.isValid = true) :
    a.toDays ≤ b.toDays ↔ a ≤ b := by
  have inA := toDays_bounds validA
  have inB := toDays_bounds validB
  rw [le_iff_march validA validB]
  rcases lt_trichotomy a.marchYear b.marchYear with before | same | after
  · have := marchFirst_mono (Int.add_one_le_of_lt before)
    omega
  · have dayA := day_bounds validA
    have dayB := day_bounds validB
    have fewA := marchMonth_few a
    have fewB := marchMonth_few b
    rw [toDays_eq, toDays_eq, same]
    unfold monthStart at dayA dayB ⊢
    omega
  · have := marchFirst_mono (Int.add_one_le_of_lt after)
    omega

end

/-! ## The date of a day -/

/-- Year of a day in an era of 400 years from March. -/
def yearOfEra (day : Int) : Int :=
  (day - day / 1460 + day / 36524 - day / 146096) / 365

/-- Before the last day of an era, the spans of four years tell the year. Every century but the
    last of its era lacks one leap day, which `century` makes up for in the count of spans. -/
theorem yearOfEra_eq {day century span rest turn : Int}
    (inCentury : 36524 * century ≤ day ∧ day < 36524 * century + 36524)
    (few : 0 ≤ century ∧ century ≤ 3) (early : day < 146096)
    (cut : day + century = 1461 * span + rest) (inSpan : 0 ≤ rest ∧ rest < 1461)
    (inTurn : 0 ≤ turn ∧ turn ≤ 3)
    (turns : 365 * turn ≤ rest ∧ (rest < 365 * turn + 365 ∨ turn = 3)) :
    yearOfEra day = 4 * span + turn := by
  have centuries : day / 36524 = century ∧ day / 146096 = 0 := by omega
  have spans : 25 * century ≤ span ∧ span < 25 * century + 25 := by omega
  have shorter : day / 1460 =
      if rest = 1460 then span + 1 else if rest + span - century < 1460 then span
      else span + 1 := by
    split <;> [skip; split] <;> omega
  rw [yearOfEra, centuries.1, centuries.2, shorter]
  split <;> [skip; split] <;> omega

theorem yearOfEra_bounds {day : Int} (first : 0 ≤ day) (last : day < 146097) :
    (0 ≤ yearOfEra day ∧ yearOfEra day ≤ 399) ∧ marchFirst (yearOfEra day) ≤ day - 719468 ∧
      day - 719468 < marchFirst (yearOfEra day + 1) := by
  rcases Int.lt_or_le day 146096 with early | late
  · obtain ⟨century, inCentury⟩ : ∃ century, century = day / 36524 := ⟨_, rfl⟩
    obtain ⟨span, inSpan⟩ : ∃ span, span = (day + century) / 1461 := ⟨_, rfl⟩
    obtain ⟨rest, cut⟩ : ∃ rest, day + century = 1461 * span + rest :=
      ⟨day + century - 1461 * span, by omega⟩
    obtain ⟨turn, inTurn, turns⟩ : ∃ turn, (0 ≤ turn ∧ turn ≤ 3) ∧
        365 * turn ≤ rest ∧ (rest < 365 * turn + 365 ∨ turn = 3) :=
      ⟨min (rest / 365) 3, by omega, by omega⟩
    have year := yearOfEra_eq (by omega) (by omega) early cut (by omega) inTurn turns
    have spans : 25 * century ≤ span ∧ span < 25 * century + 25 := by omega
    have here : (4 * span + turn) / 4 = span ∧ (4 * span + turn) / 100 = century ∧
        (4 * span + turn) / 400 = 0 := by omega
    have next : (4 * span + turn + 1) / 4 = (if turn = 3 then span + 1 else span) ∧
        (4 * span + turn + 1) / 100 =
          (if turn = 3 ∧ span = 25 * century + 24 then century + 1 else century) ∧
        (4 * span + turn + 1) / 400 = (if turn = 3 ∧ span = 99 then 1 else 0) := by
      refine ⟨?_, ?_, ?_⟩ <;> split <;> omega
    rw [year, marchFirst, marchFirst, here.1, here.2.1, here.2.2, next.1, next.2.1, next.2.2]
    refine ⟨by omega, by omega, ?_⟩
    split <;> split <;> split <;> omega
  · obtain rfl : day = 146096 := by omega
    decide

/-- The date that many days after the first of March of a year, before the next one. -/
def marchDate (year dayOfYear : Int) : Date :=
  let monthFromMarch := (5 * dayOfYear + 2) / 153
  let month := if monthFromMarch < 10 then monthFromMarch + 3 else monthFromMarch - 9
  ⟨if month ≤ 2 then year + 1 else year, month.toNat,
    (dayOfYear - monthStart monthFromMarch + 1).toNat⟩

theorem ofDays_eq (days : Int) : ∃ year, (marchFirst year ≤ days ∧ days < marchFirst (year + 1)) ∧
    ofDays days = marchDate year (days - marchFirst year) := by
  obtain ⟨era, inEra⟩ : ∃ era, era = (days + 719468).fdiv 146097 := ⟨_, rfl⟩
  obtain ⟨day, inDay⟩ : ∃ day, day = days + 719468 - era * 146097 := ⟨_, rfl⟩
  have read : ofDays days = marchDate (yearOfEra day + era * 400)
      (day - (365 * yearOfEra day + yearOfEra day / 4 - yearOfEra day / 100)) := by
    rw [inDay, inEra]
    rfl
  rw [Int.fdiv_eq_ediv_of_nonneg _ (by decide)] at inEra
  have inside : 0 ≤ day ∧ day < 146097 := by omega
  obtain ⟨few, bounds⟩ := yearOfEra_bounds inside.1 inside.2
  have shifted (year : Int) : marchFirst (year + era * 400) = marchFirst year + era * 146097 := by
    unfold marchFirst
    omega
  have next := shifted (yearOfEra day + 1)
  rw [Int.add_right_comm] at next
  refine ⟨yearOfEra day + era * 400, by rw [shifted, next]; omega, read.trans ?_⟩
  rw [shifted, marchFirst]
  exact congrArg (marchDate _) (by omega)

theorem marchDate_parts {year day : Int} (first : 0 ≤ day)
    (last : day < marchFirst (year + 1) - marchFirst year) :
    (marchDate year day).marchYear = year ∧
      (marchDate year day).marchMonth = (5 * day + 2) / 153 ∧
      ((marchDate year day).day : Int) = day - monthStart ((5 * day + 2) / 153) + 1 ∧
      1 ≤ (marchDate year day).month ∧ (marchDate year day).month ≤ 12 := by
  have next := marchFirst_next year
  have few : 0 ≤ (5 * day + 2) / 153 ∧ (5 * day + 2) / 153 ≤ 11 := by split at next <;> omega
  unfold marchYear marchMonth marchDate monthStart
  dsimp only
  refine ⟨?_, ?_, by omega, ?_, ?_⟩
  · split <;> split <;> omega
  all_goals split <;> omega

theorem marchDate_eq {year day : Int} (first : 0 ≤ day)
    (last : day < marchFirst (year + 1) - marchFirst year) :
    (marchDate year day).isValid = true ∧ (marchDate year day).toDays = marchFirst year + day := by
  obtain ⟨inYear, inMonth, inDay, low, high⟩ := marchDate_parts first last
  have length := daysInMonth_eq low high
  constructor
  · refine isValid_iff.mpr ⟨⟨low, high⟩, ?_, ?_⟩
    all_goals
      rw [inMonth, inYear] at length
      unfold monthStart at inDay length
      split at length <;> omega
  · rw [toDays_eq, inYear, inMonth, inDay]
    omega

theorem ofDays_valid (days : Int) : (ofDays days).isValid = true := by
  obtain ⟨year, bounds, read⟩ := ofDays_eq days
  rw [read]
  exact (marchDate_eq (by omega) (by omega)).1

@[simp] theorem toDays_ofDays (days : Int) : (ofDays days).toDays = days := by
  obtain ⟨year, bounds, read⟩ := ofDays_eq days
  rw [read, (marchDate_eq (by omega) (by omega)).2]
  omega

theorem ofDays_le_iff {days : Int} {d : Date} (valid : d.isValid = true) :
    ofDays days ≤ d ↔ days ≤ d.toDays := by
  rw [← toDays_le_iff (ofDays_valid days) valid, toDays_ofDays]

theorem le_ofDays_iff {days : Int} {d : Date} (valid : d.isValid = true) :
    d ≤ ofDays days ↔ d.toDays ≤ days := by
  rw [← toDays_le_iff valid (ofDays_valid days), toDays_ofDays]

theorem le_antisymm {a b : Date} (ab : a ≤ b) (ba : b ≤ a) : a = b := by
  rw [le_iff] at ab ba
  have same : a.year = b.year ∧ a.month = b.month ∧ a.day = b.day := by omega
  cases a
  cases b
  simpa only [Date.mk.injEq] using same

theorem ofDays_toDays {d : Date} (valid : d.isValid = true) : ofDays d.toDays = d :=
  le_antisymm ((ofDays_le_iff valid).mpr le_rfl) ((le_ofDays_iff valid).mpr le_rfl)

/-- A day falls in a later year exactly from the first of January after a year on. -/
theorem year_le_iff (days year : Int) :
    (ofDays days).year ≤ year ↔ days < (Date.mk (year + 1) 1 1).toDays := by
  have valid : (Date.mk (year + 1) 1 1).isValid = true := rfl
  rw [← Int.not_le, ← le_ofDays_iff valid, le_iff]
  obtain ⟨month, day, -⟩ := isValid_iff.mp (ofDays_valid days)
  dsimp only
  omega

end Date

end CodeSearch.Time

/-! ## Time that passes

Adding nanoseconds to an instant gives the instant until which they pass. A leap second has no
number of its own among the seconds since 1970, so that it counts only for one who starts in it.
Years begin and end at whole days, so that bounds on years are bounds on seconds.
-/

namespace CodeSearch.Time.Instant

section

variable {a : Instant}

@[simp] theorem toNanos_ofNanos (nanos : Int) : (ofNanos nanos).toNanos = nanos := by
  unfold toNanos ofNanos
  rw [Int.fdiv_eq_ediv_of_nonneg _ (by decide), Int.fmod_eq_emod_of_nonneg _ (by decide)]
  dsimp only
  omega

theorem nano_ofNanos (nanos : Int) : (ofNanos nanos).nano < 1000000000 := by
  unfold ofNanos
  rw [Int.fmod_eq_emod_of_nonneg _ (by decide)]
  dsimp only
  omega

/-! ## Adding nanoseconds -/

/-- Nanoseconds from an instant until a later one. -/
def elapsed (a b : Instant) : Int :=
  b.toNanos - a.toNanos + if a.isLeap ∧ a.second < b.second then 1000000000 else 0

/-- A way forward either ends in the leap second in which it starts, or skips over no leap second
    but that one. -/
theorem addNanos_cases (wellFormed : a.nano < 2000000000) {nanos : Int} (forward : 0 ≤ nanos) :
    (a.isLeap = true ∧ (a.addNanos nanos).second = a.second ∧
      (a.addNanos nanos).toNanos = a.toNanos + nanos) ∨
    ((a.addNanos nanos).nano < 1000000000 ∧
      if a.isLeap then a.second < (a.addNanos nanos).second ∧
        (a.addNanos nanos).toNanos = a.toNanos + nanos - 1000000000
      else (a.addNanos nanos).toNanos = a.toNanos + nanos) := by
  unfold addNanos
  by_cases leap : a.isLeap = true
  · have above : 1000000000 ≤ a.nano := by simpa [isLeap] using leap
    by_cases stays : a.nano + nanos < 2000000000
    · left
      have back : -1000000000 < nanos := by omega
      simp only [leap, back, stays, decide_true, Bool.and_self, if_true, toNanos, true_and]
      omega
    · right
      have onward : 0 < nanos := by omega
      simp only [leap, stays, onward, decide_true, decide_false, Bool.and_false, Bool.and_self,
        if_true, Bool.false_eq_true, if_false, toNanos_ofNanos, and_true]
      refine ⟨nano_ofNanos _, ?_⟩
      have low := nano_ofNanos (a.toNanos + nanos - 1000000000)
      have whole := toNanos_ofNanos (a.toNanos + nanos - 1000000000)
      generalize ofNanos (a.toNanos + nanos - 1000000000) = sum at low whole ⊢
      unfold toNanos at whole
      omega
  · right
    simp [leap, nano_ofNanos]

theorem elapsed_addNanos (wellFormed : a.nano < 2000000000) {nanos : Int} (forward : 0 ≤ nanos) :
    a.elapsed (a.addNanos nanos) = nanos := by
  unfold elapsed
  rcases addNanos_cases wellFormed forward with ⟨-, same, sum⟩ | ⟨-, sum⟩
  · rw [if_neg (by omega)]
    omega
  · split at sum
    · rename_i leap
      rw [if_pos ⟨leap, sum.1⟩]
      omega
    · rename_i leap
      rw [if_neg fun held => leap held.1]
      omega

theorem second_addNanos (wellFormed : a.nano < 2000000000) {nanos : Int} (forward : 0 ≤ nanos) :
    a.second ≤ (a.addNanos nanos).second ∧
      ((a.addNanos nanos).second - a.second) * 1000000000 ≤ nanos + 999999999 := by
  have ends := addNanos_cases wellFormed forward
  simp only [isLeap, decide_eq_true_eq, toNanos] at ends
  split at ends <;> omega

end

/-! ## Years -/

theorem year_le_iff (a : Instant) (year : Int) :
    a.date.year ≤ year ↔ a.second < (Date.mk (year + 1) 1 1).toDays * 86400 := by
  rw [date, Date.year_le_iff, day, Int.fdiv_eq_ediv_of_nonneg _ (by decide)]
  omega

theorem inRange_iff (a : Instant) :
    a.inRange = true ↔ -lastYear - 1 ≤ a.date.year ∧ a.date.year ≤ lastYear := by
  simp only [inRange, Bool.and_eq_true, decide_eq_true_eq]
  omega

end CodeSearch.Time.Instant
